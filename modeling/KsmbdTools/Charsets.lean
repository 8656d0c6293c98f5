import KsmbdTools.Platform
import KsmbdTools.Unicode

/-! What is asked of glib's conversions between charsets. -/

namespace KsmbdTools
open Unicode

def wideCharset (little : Bool) : Charset := if little then .utf16le else .utf16be

/-- `g_convert` and `g_utf8_strlen` are exact on valid text. -/
structure ConvertsText (platform : Platform) : Prop where
  toWide : ∀ little text, platform.gconvert (wideCharset little) .utf8 (utf8 text) = some (utf16 little text)
  fromWide : ∀ little text, platform.gconvert .utf8 (wideCharset little) (utf16 little text) = some (utf8 text)
  strlen : ∀ text, platform.utf8Strlen (utf8 text) = text.length

namespace Charset

def text? : Charset → List UInt8 → Option (List Char)
  | .utf8 => utf8Decode?
  | .utf16le => utf16Decode? true
  | .utf16be => utf16Decode? false

def bytes : Charset → List Char → List UInt8
  | .utf8 => Unicode.utf8
  | .utf16le => utf16 true
  | .utf16be => utf16 false

def convert (target source : Charset) (bytes : List UInt8) : Option (List UInt8) := (source.text? bytes).map target.bytes

theorem convert_bytes (target source : Charset) (text : List Char) :
    convert target source (source.bytes text) = some (target.bytes text) := by
  have decoded : source.text? (source.bytes text) = some text := by
    cases source with
    | utf8 => exact utf8Decode?_utf8 text
    | utf16le => exact utf16Decode?_utf16 true text
    | utf16be => exact utf16Decode?_utf16 false text
  rw [convert, decoded]
  rfl

theorem bytes_wideCharset (little : Bool) : (wideCharset little).bytes = utf16 little := by cases little <;> rfl

end Charset

/-- The platform with conversions that are exact. -/
def Platform.withText (platform : Platform) : Platform :=
  { platform with gconvert := Charset.convert, utf8Strlen := fun str => ((utf8Decode? str).getD []).length }

theorem Platform.withText_converts (platform : Platform) : ConvertsText platform.withText where
  toWide little text := by
    rw [← Charset.bytes_wideCharset]
    exact Charset.convert_bytes _ .utf8 text
  fromWide little text := by
    rw [← Charset.bytes_wideCharset]
    exact Charset.convert_bytes .utf8 _ text
  strlen text := by
    show ((utf8Decode? (utf8 text)).getD []).length = _
    rw [utf8Decode?_utf8]
    rfl

end KsmbdTools
