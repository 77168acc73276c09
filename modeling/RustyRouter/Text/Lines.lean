import Mathlib.Data.List.Basic

/-! Lines and words.

A text is a list of characters. These are the functions of the standard library that the
program takes its input files apart with. -/
namespace RustyRouter.Text

/-- `char::is_whitespace`, the `White_Space` property. -/
def isWhitespace (c : Char) : Bool :=
  let n := c.toNat
  (9 ≤ n && n ≤ 13) || n == 0x20 || n == 0x85 || n == 0xA0 || n == 0x1680 || (0x2000 ≤ n && n ≤ 0x200A) ||
    n == 0x2028 || n == 0x2029 || n == 0x202F || n == 0x205F || n == 0x3000

/-- A carriage return belongs to the line feed that follows it. -/
def stripReturn (line : List Char) : List Char :=
  if line.getLast? = some '\r' then line.dropLast else line

/-- `str::lines`: a text that ends in a line feed has no empty line after it. -/
def lines (text : List Char) : List (List Char) :=
  let pieces := text.splitOn '\n'
  pieces.dropLast.map stripReturn ++ (pieces.getLast?.toList.filter fun last => !last.isEmpty)

/-- `str::split_whitespace` -/
def splitWhitespace (text : List Char) : List (List Char) :=
  (text.splitOnP isWhitespace).filter fun word => !word.isEmpty

/-- `str::trim` -/
def trim (text : List Char) : List Char :=
  ((text.dropWhile isWhitespace).reverse.dropWhile isWhitespace).reverse

example : lines "a\r\n\nb\r".toList = ["a".toList, [], "b\r".toList] := by decide +kernel

example : splitWhitespace " x  yz\t".toList = ["x".toList, "yz".toList] := by decide +kernel

end RustyRouter.Text
