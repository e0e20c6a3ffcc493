/-
  Daybook/Diagnostics.lean
  ========================
  **The findings of a run.**  A collector keeps every finding in the order it
  arrived, and beside them the messages that it has seen, so that a message is
  shown once in a run however often it is found.  A live collector shows the
  findings it sees first; a quiet one shows nothing.  The collector shared by
  several runs is a collector like any other, to which each run's findings are
  added in one step (`absorb`).
-/
import Daybook.Diagnostic.Finding

namespace Daybook

/-- The findings of a run. -/
structure Diagnostics where
  /-- Every finding, the first one first. -/
  entries : List Diagnostic := []
  /-- The messages seen in this run. -/
  seen : List String := []
  /-- Whether findings are shown as they arrive. -/
  live : Bool := true
  /-- What has been shown so far, over all runs. -/
  shown : List Diagnostic := []
deriving DecidableEq, Repr

namespace Diagnostics

/-- A new collector that shows what it sees first. -/
def fresh : Diagnostics := {}

/-- A new collector that shows nothing. -/
def quiet : Diagnostics := { live := false }

/-! ### Adding findings -/

/-- Whether a message has not been seen in this run. -/
def isNews (c : Diagnostics) (message : String) : Bool := !c.seen.contains message

/-- Adds a finding; whether its message was news comes with it. -/
def emit (c : Diagnostics) (d : Diagnostic) : Diagnostics × Bool :=
  let news := c.isNews d.message
  ({ c with
      entries := c.entries ++ [d]
      seen := if news then d.message :: c.seen else c.seen
      shown := if news && c.live then c.shown ++ [d] else c.shown },
    news)

/-- Adds findings one after the other; the number of messages that were news comes with them. -/
def emitAll (c : Diagnostics) : List Diagnostic → Diagnostics × Nat
  | [] => (c, 0)
  | d :: rest =>
    let (next, news) := c.emit d
    let (last, count) := next.emitAll rest
    (last, count + if news then 1 else 0)

def absorb (c other : Diagnostics) : Diagnostics × Nat := c.emitAll other.entries

/-- Forgets findings and messages, so that an unrelated run can begin. -/
def reset (c : Diagnostics) : Diagnostics := { c with entries := [], seen := [] }

/-! ### Looking at findings -/

def size (c : Diagnostics) : Nat := c.entries.length

def isEmpty (c : Diagnostics) : Bool := c.entries.isEmpty

def sorted (c : Diagnostics) : List Diagnostic := Diagnostic.sort c.entries

/-- The findings after the first `mark`, in order. -/
def since (c : Diagnostics) (mark : Nat) : List Diagnostic :=
  Diagnostic.sort (c.entries.drop mark)

def withCode (c : Diagnostics) (code : Code) : List Diagnostic :=
  c.sorted.filter fun d => d.code == code

/-- The codes that occur, each with its findings in order. -/
def grouped (c : Diagnostics) : List (Code × List Diagnostic) :=
  (Code.all.map fun code => (code, c.withCode code)).filter fun group => !group.2.isEmpty

def count (c : Diagnostics) (code : Code) : Nat :=
  c.entries.countP fun d => d.code == code

def hasErrors (c : Diagnostics) : Bool := c.entries.any Diagnostic.isError

/-! ### Small laws -/

@[simp] theorem entries_emit (c : Diagnostics) (d : Diagnostic) :
    (c.emit d).1.entries = c.entries ++ [d] := rfl

@[simp] theorem entries_emitAll (c : Diagnostics) (ds : List Diagnostic) :
    (c.emitAll ds).1.entries = c.entries ++ ds := by
  induction ds generalizing c with
  | nil => simp [emitAll]
  | cons d rest ih => simp [emitAll, ih]

end Diagnostics

end Daybook
