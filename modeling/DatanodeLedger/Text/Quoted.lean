import DatanodeLedger.Text.Digits
import DatanodeLedger.Text.Showable

/-! Quoted text for diagnostics. Whatever cannot be shown stands as an escape, so that the quoted
form tells two texts apart. -/
namespace DatanodeLedger.Text

private def quotedChar (c : Char) : String :=
  if c = '"' then "\\\""
  else if c = '\\' then "\\\\"
  else if c = '\n' then "\\n"
  else if c = '\r' then "\\r"
  else if c = '\t' then "\\t"
  else if c.toNat = 0 then "\\0"
  else if isShowable c then c.toString
  else "\\u\x7b" ++ hex c.toNat ++ "\x7d"

def quoted (s : String) : String := "\"" ++ String.join (s.toList.map quotedChar) ++ "\""

end DatanodeLedger.Text
