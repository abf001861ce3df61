/-
  The store of class layouts, by type name.
-/
import ClassRecovery.Layout
import ClassRecovery.OrderedMap

namespace ClassRecovery

/-- Class layouts by the name they are registered under. -/
structure TypeDatabase where
  layouts : OrderedMap String Layout := .empty
  deriving DecidableEq

namespace TypeDatabase

/-- The layout registered under a name. -/
def get? (db : TypeDatabase) (name : String) : Option Layout := db.layouts.get? name

def contains (db : TypeDatabase) (name : String) : Bool := db.layouts.contains name

/-- Registers a layout under its own name, in place of what was registered there. -/
def register (db : TypeDatabase) (l : Layout) : TypeDatabase := ⟨db.layouts.insert l.name l⟩

/-- All layouts, in order of the names they are registered under. -/
def all (db : TypeDatabase) : List Layout := db.layouts.values

/-- The C definition of a registered layout. -/
def text? (db : TypeDatabase) (name : String) : Option String := (db.get? name).map Layout.text

end TypeDatabase

end ClassRecovery
