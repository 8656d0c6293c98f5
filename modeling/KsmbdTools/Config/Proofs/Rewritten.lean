import KsmbdTools.Config.Proofs.Printed
import KsmbdTools.Management.Proofs.Histories
import KsmbdTools.Management.Proofs.MappedFile
import KsmbdTools.Table

/-! The configuration file read back from what the share commands write. -/

namespace KsmbdTools.Config
open Management Texts

variable {platform : Platform}

namespace SmbconfParser
variable {parser : SmbconfParser}

/-- What a group has for a key, by folded name and by key in lower case. -/
def pair? (parser : SmbconfParser) (name key : CStr) : Option KeyValue :=
  (parser.groups.lookup name).bind fun group => group.kv.lookup key

def value? (parser : SmbconfParser) (name key : CStr) : Option CStr := (parser.pair? name key).map (·.value)

end SmbconfParser

theorem splitLines_lines {lines : List CStr} (plain : ∀ line ∈ lines, (10 : UInt8) ∉ line) :
    splitLines (lines.flatMap (· ++ [10])) = lines := by
  induction lines with
  | nil => rfl
  | cons line rest ih =>
    rw [List.flatMap_cons, List.append_assoc, List.singleton_append, splitLines_newline (plain line List.mem_cons_self),
      ih fun other member => plain other (List.mem_cons_of_mem _ member)]

theorem fileEntries_lines {lines : List CStr} (some : lines ≠ []) (plain : ∀ line ∈ lines, (10 : UInt8) ∉ line)
    (text : ∀ line ∈ lines, (0 : UInt8) ∉ line) : fileEntries (lines.flatMap (· ++ [10])) = lines := by
  obtain ⟨line, rest, rfl⟩ := List.exists_cons_of_ne_nil some
  rw [fileEntries, if_neg (by simp), splitLines_lines plain]
  conv_rhs => rw [← List.map_id (line :: rest)]
  refine List.map_congr_left fun entry member => ?_
  exact List.takeWhile_eq_self_iff.mpr (all_ne (text entry member))

namespace SmbconfParser
variable {parser : SmbconfParser}

end SmbconfParser

namespace SmbconfParser
variable {parser again : SmbconfParser}

end SmbconfParser

namespace SmbconfParser
variable {parser again : SmbconfParser}

def pairs (parser : SmbconfParser) : List KeyValue :=
  (HashTable.values parser.groups).flatMap fun group => HashTable.values group.kv

end SmbconfParser

namespace Scenario
open Management.Scenario

def shared : SmbconfParser :=
  (((({} : SmbconfParser).processSmbconfEntry plainPlatform (ascii "[s]")).1).processSmbconfEntry plainPlatform
    (ascii "path = /x")).1

end Scenario

end KsmbdTools.Config
