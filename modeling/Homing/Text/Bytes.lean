/-!
# Places in the bytes of a text

A place in a text can be counted in the bytes of its UTF-8 form. `sliceBytes` is what
stands at such a place.
-/

namespace Homing.Text

/-- The number of bytes that a text takes. -/
def byteSize : List Char → Nat
  | [] => 0
  | c :: cs => c.utf8Size + byteSize cs

/-- The text after its first `n` bytes. It begins with a whole character. -/
def dropBytes (n : Nat) : List Char → List Char
  | [] => []
  | c :: cs => if n = 0 then c :: cs else dropBytes (n - c.utf8Size) cs

/-- The first `n` bytes of a text. They end with a whole character. -/
def takeBytes (n : Nat) : List Char → List Char
  | [] => []
  | c :: cs => if n = 0 then [] else c :: takeBytes (n - c.utf8Size) cs

/-- The `size` bytes of a text that `start` others come before. -/
def sliceBytes (start size : Nat) (cs : List Char) : List Char :=
  takeBytes size (dropBytes start cs)

end Homing.Text
