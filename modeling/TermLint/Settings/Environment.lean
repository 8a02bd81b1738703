/-
  TermLint.Settings.Environment

  The variables that a program is started with.  They come as entries, each a name,
  an equals sign and a value.
-/

namespace TermLint.Settings

/-- The variables that are set, with their values. -/
abbrev Environment := String → Option String

/-- What an entry says about a name.  It is the text of the entry that is compared, so a value with
an equals sign in it can also be asked for by a longer name. -/
def valueIn? (name : String) (entry : String) : Option String :=
  let lead := name.toList ++ ['=']
  if lead.isPrefixOf entry.toList then some (String.ofList (entry.toList.drop lead.length))
  else none

/-- The variables that entries set; of several entries about a name the first one counts. -/
def Environment.ofEntries (entries : List String) : Environment :=
  fun name => entries.findSome? (valueIn? name)

end TermLint.Settings
