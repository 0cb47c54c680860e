import Parley.Table
import Parley.Text.Basic

/-!
# The variable store

A store holds the variables a story branches on. Numbers and flags live in two namespaces that
never see each other: one name may hold a number and a flag at once. A name that was never set
reads as the default its reader gives.
-/

namespace Parley

/-- The variables of a story. -/
structure Store where
  numbers : Table Text Int
  flags : Table Text Bool

namespace Store

/-- The store in which nothing is set. -/
def empty : Store := ⟨.empty, .empty⟩

/-- The number under a name, or a default. -/
def number (s : Store) (name : Text) (default : Int) : Int := s.numbers.getD name default

/-- The flag under a name, or a default. -/
def flag (s : Store) (name : Text) (default : Bool) : Bool := s.flags.getD name default

/-- Set a number. -/
def setNumber (s : Store) (name : Text) (n : Int) : Store :=
  { s with numbers := s.numbers.put name n }

/-- Set a flag. -/
def setFlag (s : Store) (name : Text) (b : Bool) : Store := { s with flags := s.flags.put name b }

/-- How many variables are set. -/
def size (s : Store) : Nat := s.numbers.size + s.flags.size

instance : Inhabited Store := ⟨empty⟩

end Store

end Parley
