import KsmbdTools.Management.Files
import KsmbdTools.Proc

/-! The loop of `__mmap_parse_file` over the mapping itself. It walks a pointer and a
`size_t` that wraps around, and each byte it looks at has to lie inside the mapping. -/

namespace KsmbdTools.Management

/-- A `size_t`. -/
def sizeMax : Nat := 2 ^ 64 - 1

/-- `memchr(file + start, byte, length)`. `none` is a read outside the mapping. -/
def memchr (byte : UInt8) (file : List UInt8) : (start length : Nat) → Option (Option Nat)
  | _, 0 => some none
  | start, length + 1 =>
    match file[start]? with
    | none => none
    | some found => if found = byte then some (some start) else memchr byte file (start + 1) length

/-- `g_strndup(file + start, length)`, which reads no further than a NUL. -/
def gStrndup (file : List UInt8) : (start length : Nat) → Option CStr
  | _, 0 => some []
  | start, length + 1 =>
    match file[start]? with
    | none => none
    | some byte => if byte = 0 then some [] else (gStrndup file (start + 1) length).map (byte :: ·)

section
variable {σ : Type} (processEntry : σ → CStr → σ × Int) (file : List UInt8)

/-- The loop. `stop` is a loop that has not ended within the fuel, `fault` is a read
outside the mapping. -/
def mmapLoop : (fuel start length : Nat) → σ → Outcome Unit (σ × Int)
  | 0, _, _, _ => .stop ()
  | fuel + 1, start, length, state =>
    if 0 < length ∧ length ≠ sizeMax then
      match memchr 10 file start length with
      | none => .fault
      | some found =>
        let delim := found.getD (start + length)
        match gStrndup file start (delim - start) with
        | none => .fault
        | some entry =>
          match processEntry state entry with
          | (state, ret) =>
            if ret ≠ 0 then .ok (state, ret)
            -- `len -= delim - contents + 1` may pass below zero.
            else mmapLoop fuel (delim + 1) ((length + 2 ^ 64 - (delim - start + 1)) % 2 ^ 64) state
    else .ok (state, 0)

/-- `__mmap_parse_file` of a file that is there. A mapping of no bytes has no contents. -/
def mmapParseFile (fuel : Nat) (state : σ) : Outcome Unit (σ × Int) :=
  if file.isEmpty then .ok (processEntry state [])
  else mmapLoop processEntry file fuel 0 file.length state

end

def returned {σ : Type} : σ × Bool → σ × Int
  | (state, true) => (state, 0)
  | (state, false) => (state, -22)

/-- The newline-separated pieces of a content, each up to its first NUL. A newline at
the end adds no piece. -/
def pieces (contents : List UInt8) : List CStr :=
  let lines := contents.splitOn 10
  let lines := if contents.getLast? = some 10 then lines.dropLast else lines
  lines.map (·.takeWhile (· != 0))

/-- A handler on one piece after the other, up to the first it does not return zero on. -/
def feed {σ : Type} (processEntry : σ → CStr → σ × Int) (state : σ) : List CStr → σ × Int
  | [] => (state, 0)
  | entry :: entries =>
    match processEntry state entry with
    | (state, ret) => if ret ≠ 0 then (state, ret) else feed processEntry state entries

end KsmbdTools.Management
