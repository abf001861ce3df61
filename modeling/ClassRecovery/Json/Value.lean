/-
  JSON values.

  Integers are kept exact, all other numbers are doubles.  The members of an object stay in
  the order of the text, with repetitions: whether a repeated key is an error is for the reader of the
  object to say.
-/

namespace ClassRecovery

/-- A JSON value. -/
inductive Json where
  | null
  | bool (value : Bool)
  /-- A number written without fraction or exponent. -/
  | int (value : Int)
  | float (value : Float)
  | str (value : String)
  | arr (items : List Json)
  | obj (members : List (String × Json))
  /-- Well-formed text that denotes no value: a number out of range, a string with half a
      surrogate pair, a container nested too deeply.  It may be skipped but not read. -/
  | unreadable
  deriving Inhabited

namespace Json

mutual
/-- Whether every part of the value can be read. -/
def isReadable : Json → Bool
  | unreadable => false
  | arr items => areReadable items
  | obj members => haveReadable members
  | _ => true

def areReadable : List Json → Bool
  | [] => true
  | item :: rest => item.isReadable && areReadable rest

def haveReadable : List (String × Json) → Bool
  | [] => true
  | (_, value) :: rest => value.isReadable && haveReadable rest
end

/-- Keeps of every key the last member. -/
def lastMembers : List (String × Json) → List (String × Json)
  | [] => []
  | m :: rest => if rest.any (·.1 == m.1) then lastMembers rest else m :: lastMembers rest

mutual
/-- The value in which every object keeps only the last member of each key. -/
def withoutRepeats : Json → Json
  | arr items => arr (itemsWithoutRepeats items)
  | obj members => obj (lastMembers (membersWithoutRepeats members))
  | j => j

def itemsWithoutRepeats : List Json → List Json
  | [] => []
  | item :: rest => item.withoutRepeats :: itemsWithoutRepeats rest

def membersWithoutRepeats : List (String × Json) → List (String × Json)
  | [] => []
  | (key, value) :: rest => (key, value.withoutRepeats) :: membersWithoutRepeats rest
end

end Json

end ClassRecovery
