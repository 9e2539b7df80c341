import Mathlib.Data.String.Basic

namespace InferTwin

def apostrophe : Char := Char.ofNat 39

def quotationMark : Char := Char.ofNat 34

/-- A character inside a `repr`. Outside ASCII all of them are taken to be printable, which
Python decides by its Unicode tables. -/
def reprChar (quote c : Char) : String :=
  match c.toNat with
  | 9 => "\\t"
  | 10 => "\\n"
  | 13 => "\\r"
  | 92 => "\\\\"
  | n =>
    if c = quote then "\\" ++ c.toString
    else if n < 32 ∨ n = 127 then "\\x" ++ String.ofList ((Nat.toDigits 16 n).leftpad 2 '0')
    else c.toString

/-- `repr` of a text: in apostrophes, unless it has some and no quotation marks. -/
def reprText (text : String) : String :=
  let quote :=
    if apostrophe ∈ text.toList ∧ quotationMark ∉ text.toList then quotationMark else apostrophe
  quote.toString ++ String.join (text.toList.map (reprChar quote)) ++ quote.toString

example : reprText "a\\b\n" = "'a\\\\b\\n'" ∧ reprText "it's" = "\"it's\"" := by decide +kernel

end InferTwin
