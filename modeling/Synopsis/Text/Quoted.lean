import Synopsis.Text.Printable

/-!
# Quoted text

Text in quotes on one line: single quotes, or double ones when it holds single quotes alone. A
backslash stands before the quote and before itself, and unprintable characters are escaped.
-/

namespace Synopsis

namespace Text

def quoteFor (t : Text) : Char :=
  if t.contains '\'' && !t.contains '"' then '"' else '\''

/-- The shortest escape that holds the code point of `c`. -/
def codeEscape (c : Char) : Text :=
  let n := c.toNat
  if n < 0x100 then '\\' :: 'x' :: hexadecimal 2 n
  else if n < 0x10000 then '\\' :: 'u' :: hexadecimal 4 n
  else '\\' :: 'U' :: hexadecimal 8 n

def quotedChar (quote c : Char) : Text :=
  if c = quote || c = '\\' then ['\\', c]
  else if c = '\n' then ['\\', 'n']
  else if c = '\r' then ['\\', 'r']
  else if c = '\t' then ['\\', 't']
  else if isPrintable c then [c]
  else codeEscape c

def quoted (t : Text) : Text :=
  quoteFor t :: t.flatMap (quotedChar (quoteFor t)) ++ [quoteFor t]

def bracketed (items : List Text) : Text :=
  '[' :: [',', ' '].intercalate items ++ [']']

@[simp] theorem quoted_nil : quoted [] = ['\'', '\''] := rfl

end Text

end Synopsis
