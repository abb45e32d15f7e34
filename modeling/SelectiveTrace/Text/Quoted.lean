/-! String literals. A literal stands in single quotes, or in double quotes when its text holds
single quotes and no double ones; the backslash, the quote it stands in, and the line feed,
carriage return and tab are escaped. -/
namespace SelectiveTrace.Text

def delimiter (cs : List Char) : Char :=
  if cs.contains '\'' && !cs.contains '"' then '"' else '\''

def escaped (quote : Char) (c : Char) : List Char :=
  if c = '\\' then ['\\', '\\']
  else if c = '\n' then ['\\', 'n']
  else if c = '\r' then ['\\', 'r']
  else if c = '\t' then ['\\', 't']
  else if c = quote then ['\\', c]
  else [c]

def quoteChars (cs : List Char) : List Char :=
  delimiter cs :: cs.flatMap (escaped (delimiter cs)) ++ [delimiter cs]

def quote (s : String) : String :=
  String.ofList (quoteChars s.toList)

end SelectiveTrace.Text
