/-
# Exported experiences as a text

One line of JSON for each experience.  The text always ends with a line break; that of no
experiences is a line break alone.
-/
import Punter.Experience.Basic

namespace Punter.Experience

variable {α : Type} [Scalar α]

/-- The line of an experience, without its line break. -/
def line (e : Experience α) : String := Transition.codec.toText (.ofExperience e)

/-- The text of experiences. -/
def lines (es : List (Experience α)) : String := "\n".intercalate (es.map line) ++ "\n"

end Punter.Experience
