import Marko.PymarkoUDPSocket

/-! Byte strings as text. A Lean string is exactly a Python `str` that UTF-8 can encode. -/
namespace Pymarko

open Datagram

def text (payload : Bytes) : Option String := String.fromUTF8? ⟨payload.toArray⟩

def encode (s : String) : Bytes := s.toByteArray.data.toList

/-- `data.decode('utf8')`. -/
def decodeUtf8 (data : Bytes) : Except PyError String :=
  match String.fromUTF8? ⟨data.toArray⟩ with
  | some text => .ok text
  | none => .error .unicodeDecodeError

theorem text_eq_some_iff {payload : Bytes} {s : String} :
    text payload = some s ↔ payload = encode s := by
  unfold text encode
  constructor
  · intro h
    obtain ⟨hvalid, hs⟩ := Option.dite_none_right_eq_some.mp h
    obtain rfl := Option.some.inj hs
    rfl
  · rintro rfl
    have hbytes : (⟨s.toByteArray.data.toList.toArray⟩ : ByteArray) = s.toByteArray := by
      rw [Array.toArray_toList]
    rw [hbytes, String.fromUTF8?, dif_pos s.isValidUTF8]
    rfl

theorem decodeUtf8_eq (data : Bytes) : decodeUtf8 data =
    match text data with
    | some t => .ok t
    | none => .error .unicodeDecodeError := rfl

/-- Decoding undoes encoding and accepts nothing else. -/
theorem decodeUtf8_eq_ok_iff {data : Bytes} {s : String} :
    decodeUtf8 data = .ok s ↔ data = encode s := by
  rw [decodeUtf8_eq, ← text_eq_some_iff]
  cases text data <;> simp

end Pymarko
