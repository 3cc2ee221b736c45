import WireView.Text.Printable

/-!
# Quoted text

A quoted text stands between single quotes, or between double quotes when it
holds a single quote and no double one.  The enclosing quote and the backslash
are escaped, and so is every character that is not printable: by name for tab,
newline and carriage return, else by its hexadecimal code.
-/

namespace WireView
namespace Text

def hexDigits (width n : Nat) : String :=
  let ds := String.ofList (Nat.toDigits 16 n)
  String.ofList (List.replicate (width - ds.length) '0') ++ ds

def codeEscape (c : Char) : String :=
  let n := c.toNat
  if n < 0x100 then
    "\\x" ++ hexDigits 2 n
  else
    if n < 0x10000 then "\\u" ++ hexDigits 4 n
  else "\\U" ++ hexDigits 8 n

def escape (quote c : Char) : String :=
  if c = quote ∨ c = '\\' then
    String.ofList ['\\', c]
  else
    if c = '\t' then "\\t"
  else if c = '\n' then "\\n"
  else if c = '\r' then "\\r"
  else if isPrintable c then String.singleton c
  else codeEscape c

def quoteFor (s : String) : Char :=
  if s.toList.contains '\'' && !s.toList.contains '"' then '"' else '\''

def quoted (s : String) : String :=
  let q := quoteFor s
  String.singleton q ++ String.join (s.toList.map (escape q)) ++
    String.singleton q

end Text
end WireView
