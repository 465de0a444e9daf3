import OuterApprox.Engine.Basic

/-!
# Engines with tables

The part that simple engines have in common: columns and rows in tables, a
record of everything done to them, and accesses that can be made to fail. The
tables are faithful: a successful change sets exactly the entry it names, and
nothing else ever changes one.

## Main definitions

* `EngineAction`: What was done to an engine.
* `Tabular`: The tables and the record.
* `Tabular.engine`: The engine for a way of searching and of solving
  elastically.
-/

namespace OuterApprox

/-- What was done to an engine. -/
inductive EngineAction (α : Type) where
  /-- The bounds of a column were to change. -/
  | bounds (column : Nat) (lower upper : α)
  /-- The right-hand side of a row was to change. -/
  | rowUpper (row : Nat) (upper : α)
  /-- A search. -/
  | search
  /-- An elastic solve. -/
  | elastic (rows : List Nat) (prices : List α)
  /-- An event of a search, and what its handler did. -/
  | event (reason : Reason) (calls : List (Call α))

/-- Accesses that fail. -/
structure AccessFailures where
  /-- Every new row is refused with this error. -/
  newRow : Option EngineError := none
  /-- Columns whose bounds cannot be read. -/
  boundsRead : List Nat := []
  /-- Columns whose bounds cannot be changed. -/
  boundsWrite : List Nat := []
  /-- Rows whose right-hand side cannot be read. -/
  rowRead : List Nat := []
  /-- Rows whose right-hand side cannot be changed. -/
  rowWrite : List Nat := []

/-- Tables of columns and rows, and the record of what was done. -/
structure Tabular (α : Type) where
  /-- Lower and upper bounds by column. -/
  bounds : List (α × α)
  /-- Names and rows by position. -/
  rows : List (String × Row α)
  /-- Accesses that fail. -/
  failures : AccessFailures
  /-- The final bound of the last search. -/
  finalBound : Answer α
  /-- Searches so far. -/
  searches : Nat
  /-- What was done, in order. -/
  record : List (EngineAction α)

namespace Tabular

variable {α : Type}

/-- The error of an access made to fail. -/
def scriptedFailure : EngineError := .native (-7) "scripted"

/-- No final bound is known. -/
def noFinalBound : Answer α := .error (.notAvailable "final_bound")

/-- Tables nothing was done to. -/
def fresh (bounds : List (α × α)) (rows : List (String × Row α)) (failures : AccessFailures) :
    Tabular α :=
  { bounds, rows, failures, finalBound := noFinalBound, searches := 0, record := [] }

/-- Remember what was done. -/
def remember (m : Tabular α) (a : EngineAction α) : Tabular α :=
  { m with record := m.record ++ [a] }

/-- Look an index up, unless the access is made to fail. -/
def access {β : Type} (failing : List Nat) (table : List β) (i : Nat) : Answer β :=
  if failing.contains i then .error scriptedFailure
  else
    match table[i]? with
    | some b => .ok b
    | none => .error (.invalidIndex i table.length)

theorem access_nil {β : Type} {table : List β} {i : Nat} (h : i < table.length) :
    access [] table i = .ok table[i] := by
  simp only [access, List.contains_nil, Bool.false_eq_true, if_false, List.getElem?_eq_getElem h]

theorem getElem?_of_access {β : Type} {failing : List Nat} {table : List β} {i : Nat} {b : β}
    (h : access failing table i = .ok b) : table[i]? = some b := by
  unfold access at h
  split at h
  · exact nomatch h
  · split at h
    next hb => exact hb.trans (congrArg some (Except.ok.inj h))
    · exact nomatch h

/-- Add a row. -/
def addRow (m : Tabular α) (row : Row α) (name : String) : Tabular α × Answer Nat :=
  match m.failures.newRow with
  | some e => (m, .error e)
  | none => ({ m with rows := m.rows ++ [(name, row)] }, .ok m.rows.length)

/-- Change the bounds of a column. The attempt is remembered in any case. -/
def setColumnBounds (m : Tabular α) (i : Nat) (lower upper : α) : Tabular α × Answer Unit :=
  let m := m.remember (.bounds i lower upper)
  match access m.failures.boundsWrite m.bounds i with
  | .error e => (m, .error e)
  | .ok _ => ({ m with bounds := m.bounds.set i (lower, upper) }, .ok ())

/-- Change the right-hand side of a row. The attempt is remembered in any
    case. -/
def setRowUpper (m : Tabular α) (i : Nat) (upper : α) : Tabular α × Answer Unit :=
  let m := m.remember (.rowUpper i upper)
  match access m.failures.rowWrite m.rows i with
  | .error e => (m, .error e)
  | .ok (name, row) =>
    ({ m with rows := m.rows.set i (name, { row with upper }) }, .ok ())

/-- A search begins. -/
def beginSearch (m : Tabular α) : Tabular α :=
  { m.remember .search with searches := m.searches + 1 }

/-- Report an event, remember what its handler did, and go on. -/
def reporting (m : Tabular α) (e : Event α)
    (next : Tabular α → List (Call α) → Search α (Tabular α)) : Search α (Tabular α) :=
  .report e fun calls => next (m.remember (.event e.reason calls)) calls

/-- The engine that searches, and solves elastically, in the given ways. -/
def engine (search : Tabular α → Search α (Tabular α))
    (elastic : Tabular α → List Nat → List α → Answer (ElasticSolution α)) :
    Engine α (Tabular α) where
  columns m := m.bounds.length
  rows m := m.rows.length
  addRow := addRow
  columnBounds m i := access m.failures.boundsRead m.bounds i
  setColumnBounds := setColumnBounds
  rowUpper m i := (access m.failures.rowRead m.rows i).map (·.2.upper)
  setRowUpper := setRowUpper
  search m := search m.beginSearch
  elastic m rows prices := (m.remember (.elastic rows prices), elastic m rows prices)
  finalBound m := m.finalBound

end Tabular

end OuterApprox
