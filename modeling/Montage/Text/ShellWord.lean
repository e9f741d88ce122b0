/-!
Command lines as a POSIX shell reads them back: a word of harmless characters stands as it is, any
other goes between single quotes.
-/
namespace Montage.ShellWord

def isHarmless (c : Char) : Bool :=
  c.isAlphanum || "_@%+=:,./-".toList.contains c

/-- A single quote ends the quoted stretch, stands between double quotes and begins the next. -/
def quoteChar (c : Char) : List Char :=
  if c = '\'' then ['\'', '"', '\'', '"', '\''] else [c]

def chars (cs : List Char) : List Char :=
  if !cs.isEmpty && cs.all isHarmless then cs
  else '\'' :: cs.flatMap quoteChar ++ ['\'']

def text (s : String) : String := String.ofList (chars s.toList)

def line (ws : List String) : String := " ".intercalate (ws.map text)

end Montage.ShellWord
