import PgClient.Error

/-!
# Least recently used cache

A cache bounded both by the number of its entries and by their estimated size. An entry is taken
out to be used and handed back afterwards, so an entry in use is not resident, and asking for its
key a second time builds another one. Handing back an entry gives up entries from the oldest on
until both bounds hold again; the caller is told which, oldest first, so that it can release what
they refer to.

The entries are a list of pairs without two equal keys, oldest first.
-/

namespace PgClient

/-- A cache of values of type `ν` under keys of type `κ`. -/
structure Cache (κ ν : Type) where
  /-- The estimated size of a value. -/
  sizeOf : ν → Nat
  maxEntries : Nat
  maxBytes : Nat
  /-- The resident entries, oldest first. -/
  entries : List (κ × ν) := []
  /-- The size of all resident values together. -/
  currentSize : Nat := 0

namespace Cache

variable {κ ν : Type} [BEq κ]

/-- An empty cache; a bound of zero means that nothing is ever kept. -/
def empty (sizeOf : ν → Nat) (maxEntries maxBytes : Nat) : Cache κ ν :=
  { sizeOf, maxEntries, maxBytes }

def length (c : Cache κ ν) : Nat :=
  c.entries.length

/-- The resident value of a key. -/
def get? (c : Cache κ ν) (key : κ) : Option ν :=
  (c.entries.find? (·.1 == key)).map Prod.snd

def contains (c : Cache κ ν) (key : κ) : Bool :=
  (c.get? key).isSome

/-- The cache without the entry of a key. -/
def erase (c : Cache κ ν) (key : κ) : Cache κ ν :=
  match c.get? key with
  | some value =>
    { c with
      entries := c.entries.filter (!·.1 == key)
      currentSize := c.currentSize - c.sizeOf value }
  | none => c

/-- Why a value could not be built: any other family of error is worded into that of statements. -/
def creationError : Error → Error
  | .statementCreation cause => .statementCreation cause
  | e => .statementCreation (.stated e.message)

section Build

variable {m : Type → Type} [Monad m]

/-- Builds a value without looking at the resident ones. -/
def create (build : κ → m (Except Error ν)) (key : κ) : m (Except Error ν) := do
  return (← build key).mapError creationError

/-- Takes the value of a key out of the cache, or builds one if it is not resident. -/
def borrow (build : κ → m (Except Error ν)) (key : κ) (c : Cache κ ν) :
    m (Except Error ν × Cache κ ν) := do
  match c.get? key with
  | some value => return (.ok value, c.erase key)
  | none => return (← create build key, c)

end Build

/-- Whether a value of this size may become resident: caching is not turned off, and the value
takes at most half of the size allowed. Twice the size is counted up to the greatest 64-bit
number. -/
def admits (c : Cache κ ν) (size : Nat) : Bool :=
  c.maxEntries != 0 && c.maxBytes != 0 && decide (min (2 * size) (UInt64.size - 1) ≤ c.maxBytes)

/-- Whether the sizes are too large to be added in a word of 64 bits. -/
def overflows (c : Cache κ ν) (size : Nat) : Bool :=
  c.admits size && decide (UInt64.size ≤ c.currentSize + size)

/-- The values given up from the oldest on until both bounds hold, and the cache after that. -/
def shrink (c : Cache κ ν) : List (κ × ν) → Nat → List ν × Cache κ ν
  | [], size => ([], { c with entries := [], currentSize := size })
  | (key, value) :: rest, size =>
    if c.maxEntries < rest.length + 1 || c.maxBytes < size then
      let (given, after) := shrink c rest (size - c.sizeOf value)
      (value :: given, after)
    else ([], { c with entries := (key, value) :: rest, currentSize := size })

/-- Hands a value back. It becomes the newest entry, in place of another one of its key that was
built meanwhile. The values that do not stay are returned in the order they are given up. The sizes
are added exactly; a program that counts them in 64 bits stops at a value that `overflows`. -/
def put (c : Cache κ ν) (key : κ) (value : ν) : List ν × Cache κ ν :=
  if c.admits (c.sizeOf value) then
    let others := c.entries.filter (!·.1 == key)
    let displaced := c.get? key
    let size := c.currentSize + c.sizeOf value - displaced.elim 0 c.sizeOf
    let (given, after) := c.shrink (others ++ [(key, value)]) size
    (displaced.toList ++ given, after)
  else ([value], c)

/-- Takes the value of a key out of the cache, if it is resident. -/
def remove (c : Cache κ ν) (key : κ) : Option ν × Cache κ ν :=
  (c.get? key, c.erase key)

/-- Forgets every entry without giving it up: what the entries refer to is gone already. -/
def clear (c : Cache κ ν) : Cache κ ν :=
  { c with entries := [], currentSize := 0 }

/-- The bounds and the load of a cache for a reader. -/
def render (c : Cache κ ν) : String :=
  "LruCache \x7b len: " ++ toString c.length ++ ", max_entries: " ++ toString c.maxEntries
    ++ ", max_bytes: " ++ toString c.maxBytes ++ ", current_size: " ++ toString c.currentSize
    ++ " \x7d"

end Cache

end PgClient
