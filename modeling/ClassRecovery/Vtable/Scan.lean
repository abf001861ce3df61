/-
  Finding tables of virtual functions in sections.

  A section is scanned pointer by pointer.  At each position the longest run of function pointers
  is a candidate; a candidate that is likely enough is reported and the scan goes on behind it.
-/
import ClassRecovery.Config
import ClassRecovery.OrderedMap
import ClassRecovery.Vtable.Basic

namespace ClassRecovery

/-- What is known about the functions that tables point to. -/
structure VtableDetector where
  pointers : PointerFormat
  config : ScanConfig := {}
  functions : OrderedSet Address := .empty
  /-- Ranges of code, the ends excluded.  Where none is given, all but the first page counts as code. -/
  code : List (Address × Address) := []
  symbols : OrderedMap Address String := .empty
  /-- The functions that fill the slots of functions without a body. -/
  pureHandlers : OrderedSet Address := .empty
  thunks : OrderedMap Address ThunkInfo := .empty

namespace VtableDetector

variable (d : VtableDetector)

/-- Whether an address lies in code. -/
def isCode (address : Address) : Bool :=
  if d.code.isEmpty then 0x1000 ≤ address
  else d.code.any fun range => range.1 ≤ address && address < range.2

/-- Whether an address can be that of a function. -/
def isFunction (address : Address) : Bool :=
  d.functions.contains address || d.pureHandlers.contains address || d.isCode address

/-- A slot that holds the given function. -/
def entry (offset : Word) (target : Address) : VtableEntry where
  offset
  target
  name := d.symbols.get? target
  isPure := d.pureHandlers.contains target
  thunk := d.thunks.get? target

/-- The slots from `position` on, when the table starts at `start`, has `count` slots before them, and
    `gaps` null slots stand right before them.  A slot takes at least one byte, so there are never
    more of them than bytes. -/
def slots (region : Region) (start : Nat) : Nat → Nat → Nat → Nat → List VtableEntry
  | 0, _, _, _ => []
  | fuel + 1, position, gaps, count =>
    match d.pointers.pointer? region position with
    | none => []
    | some target =>
      let offset := UInt64.ofNat (position - start)
      if target = 0 then
        if d.config.allowGaps && gaps < d.config.maxGapSize.toNat then
          { offset, target } ::
            slots region start fuel (position + d.pointers.size) (gaps + 1) (count + 1)
        else []
      else if d.isFunction target then
        d.entry offset target ::
          (if d.config.maxEntries.toNat ≤ count + 1 then []
           else slots region start fuel (position + d.pointers.size) 0 (count + 1))
      else []

/-- A list of slots without the null slots at its end. -/
def withoutTrailingGaps (entries : List VtableEntry) : List VtableEntry :=
  (entries.reverse.dropWhile fun e => e.target = 0).reverse

/-- How likely a list of slots is a table.  Length, a descriptor, known functions and names speak for
    it; it speaks against it that all slots are without a body. -/
def confidence (entries : List VtableEntry) (hasRtti : Bool) : Float :=
  let count := entries.length
  let known := entries.countP fun e => d.functions.contains e.target
  let named := entries.countP fun e => e.name.isSome
  let pureSlots := entries.countP fun e => e.isPure
  let share (n : Nat) : Float := (UInt64.ofNat n).toFloat / (UInt64.ofNat count).toFloat
  let score : Float := 0.0
  let score := if 2 ≤ count then score + 0.2 else score
  let score := if 4 ≤ count then score + 0.1 else score
  let score := if 8 ≤ count then score + 0.1 else score
  let score := if hasRtti then score + 0.3 else score
  let score := if 0 < known then score + 0.2 * share known else score
  let score := if 0 < named then score + 0.1 * share named else score
  let score := if pureSlots = count && 0 < count then score - 0.1 else score
  if score < 0.0 then 0.0 else if 1.0 < score then 1.0 else score

/-- The table at a position of a section that starts at `base`, if there are enough slots. -/
def detect? (region : Region) (base : Address) (position : Nat) : Option Vtable :=
  let size := d.pointers.size
  let descriptor :=
    if d.config.detectRtti && size ≤ position then
      (d.pointers.pointer? region (position - size)).filter fun p => p != 0 && !d.isCode p
    else none
  let offsetToTop :=
    if 2 * size ≤ position then d.pointers.signedPointer? region (position - 2 * size) else none
  let entries := withoutTrailingGaps (d.slots region position (region.size + 1) position 0 0)
  if entries.length < max d.config.minEntries.toNat 1 then none
  else some
    { address := base + UInt64.ofNat position
      descriptor
      offsetToTop
      entries
      isPrimary := offsetToTop.elim true (· == 0)
      confidence := d.confidence entries descriptor.isSome }

/-- The table at a position, if it is likely enough to be reported. -/
def report? (region : Region) (base : Address) (position : Nat) : Option Vtable :=
  (d.detect? region base position).filter fun v => d.config.minConfidence ≤ v.confidence

/-- The tables from a position on. -/
def scanFrom (region : Region) (base : Address) (position : Nat) : List Vtable :=
  if position + d.pointers.size ≤ region.size then
    match d.report? region base position with
    | some v =>
      v :: scanFrom region base
        (position + max (v.entries.length * d.pointers.size) d.pointers.size)
    | none => scanFrom region base (position + d.pointers.size)
  else []
termination_by region.size - position
decreasing_by
  all_goals
    have : 0 < d.pointers.size := d.pointers.width.bytes_pos
    omega

/-- The first position that is scanned. -/
def firstPosition (base : Address) : Nat :=
  let past := base.toNat % d.pointers.size
  if d.config.requireAlignment && past != 0 then d.pointers.size - past else 0

/-- The tables of a section that starts at `base`. -/
def scan (region : Region) (base : Address) : List Vtable :=
  d.scanFrom region base (d.firstPosition base)

/-- What the names of sections with tables contain. -/
def tableSectionNames : List String := [".rodata", ".rdata", "__const", ".data.rel.ro"]

/-- Whether one text contains another. -/
def contains (part : List Char) : List Char → Bool
  | [] => part.isEmpty
  | c :: rest => part.isPrefixOf (c :: rest) || contains part rest

/-- Whether tables are looked for in a section of the given name. -/
def isTableSection (name : String) : Bool :=
  tableSectionNames.any fun part => contains part.toList name.toList

/-- The tables of all sections that can hold tables, by address. -/
def scanSections (sections : List (String × Address × Region)) : List Vtable :=
  let tables := sections.flatMap fun s =>
    if isTableSection s.1 then d.scan s.2.2 s.2.1 else []
  tables.mergeSort fun v w => v.address ≤ w.address

end VtableDetector

end ClassRecovery
