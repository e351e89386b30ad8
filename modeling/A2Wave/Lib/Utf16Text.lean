import A2Wave.Lib.JsText
import A2Wave.Lib.Utf16Json

/-! Strings as their code units. -/

namespace A2Wave.Utf16

def ofChars (s : List Char) : Text := s.flatMap fun c => (JsonText.utf16 c).map UInt16.ofNat

def ascii (s : String) : Text := ofChars s.toList

def isBlank (s : Text) : Bool := s.all fun u => JsText.isSpace (Char.ofNat u.toNat)

def trim (s : Text) : Text :=
  (s.dropWhile fun u => JsText.isSpace (Char.ofNat u.toNat)).rdropWhile
    fun u => JsText.isSpace (Char.ofNat u.toNat)

def newline : UInt16 := 0x0a

end A2Wave.Utf16
