import Formulary.Formula.Version

/-!
# Templates

Commands and environments may hold placeholders `%(name)s`. They are replaced one name after
the other : the name of the formula, its version, the values at hand, the values of the
formula.
-/

namespace Formulary

/-- How the value of a name is referred to. -/
def placeholder (name : String) : String := "%(" ++ name ++ ")s"

/-- The template with the placeholder of one name replaced. -/
def fillOne (template : String) (entry : String × String) : String :=
  Text.replace template (placeholder entry.1) entry.2

namespace Formula

/-- The names with their values, in the order in which they are replaced. -/
def substitutions (f : Formula) (extra : Bindings) : List (String × String) :=
  ("name", f.identity.name) ::
    ((f.version?.map fun v => ("version", v)).toList ++ extra.entries ++ f.vars.entries)

/-- The template with every known placeholder replaced. -/
def substitute (f : Formula) (template : String) (extra : Bindings) : String :=
  (f.substitutions extra).foldl fillOne template

end Formula

end Formulary
