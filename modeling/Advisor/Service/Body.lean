import Advisor.Text.Utf8

namespace Advisor.Service

structure Body where
  bytes : List UInt8
  deriving DecidableEq, Repr

namespace Body

def ofText (text : String) : Body := ⟨text.toUTF8.data.toList⟩

instance : Coe String Body := ⟨ofText⟩

def size (b : Body) : Nat := b.bytes.length

def lone : List Char := "\\ud800\\ud800".toList

/-- A text that reads as JSON just where bytes that are torn would. Where nobody wants a string, what is in
it need not be text, be it torn bytes or an escaped surrogate that stands alone; where somebody does, both are
refused. After a backslash torn bytes are no escape. -/
def spell (escaped : Bool) : List (Option Char) → List Char
  | [] => []
  | some c :: cs => c :: spell (c == '\\' && !escaped) cs
  | none :: cs => (if escaped then ['\x00'] else lone) ++ spell false cs

def text (b : Body) : String :=
  match Text.Utf8.decode? b.bytes with
  | some text => text
  | none => .ofList (spell false (Text.Utf8.pieces b.bytes))

theorem size_ofText (text : String) : (ofText text).size = text.utf8ByteSize := rfl

theorem text_ofText (text : String) : (ofText text).text = text := by
  have hdecode : Text.Utf8.decode? (ofText text).bytes = some text := by
    rw [ofText, Text.Utf8.decode?, Array.toArray_toList, String.fromUTF8?,
      String.toUTF8_eq_toByteArray, dif_pos text.isValidUTF8]
    rfl
  rw [Body.text, hdecode]

end Body

end Advisor.Service
