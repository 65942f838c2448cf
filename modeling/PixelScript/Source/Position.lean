import PixelScript.Text.Bytes

/-! Lines and columns of byte offsets. Both count from one, and columns count
characters. An offset past the end or inside a character stands for the end of the
source. -/
namespace PixelScript

structure Position where
  line : Nat
  column : Nat
deriving DecidableEq

namespace Position

/-- The text in front of an offset. -/
def textBefore (source : List Char) (offset : Nat) : List Char :=
  ((Text.splitAtByte offset source).map Prod.fst).getD source

/-- The position that follows a text. -/
def after (text : List Char) : Position :=
  ⟨text.count '\n' + 1, (text.reverse.takeWhile (· ≠ '\n')).length + 1⟩

def ofOffset (source : List Char) (offset : Nat) : Position :=
  after (textBefore source offset)

end Position
end PixelScript
