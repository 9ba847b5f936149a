/-!
# Text measured in bytes

Offsets into a text count the bytes of its UTF-8 encoding.  This file gives the length of a text in
bytes and the longest part of it that fits into a number of bytes without cutting a character.
-/

namespace FieldRules
namespace Text

/-- The number of bytes that the UTF-8 encoding of a text takes. -/
def byteLength : List Char → Nat
  | [] => 0
  | character :: rest => character.utf8Size + byteLength rest

/-- The longest beginning of a text whose encoding takes at most `room` bytes. -/
def takeBytes : (room : Nat) → List Char → List Char
  | _, [] => []
  | room, character :: rest =>
      if character.utf8Size ≤ room then
        character :: takeBytes (room - character.utf8Size) rest
      else []

@[simp]
theorem byteLength_nil : byteLength [] = 0 := rfl

@[simp]
theorem byteLength_cons (character : Char) (rest : List Char) :
    byteLength (character :: rest) = character.utf8Size + byteLength rest := rfl

@[simp]
theorem byteLength_append (first second : List Char) :
    byteLength (first ++ second) = byteLength first + byteLength second := by
  induction first with
  | nil => simp
  | cons character rest induction => simp [induction, Nat.add_assoc]

end Text
end FieldRules
