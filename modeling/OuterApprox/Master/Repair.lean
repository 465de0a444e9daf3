import OuterApprox.Master.Basic

/-!
# Repair

Cuts from constraints that are not convex may cut off everything. When the
model is infeasible, the rows made from such cuts get slack, priced so that
later rows are cheaper to relax, and the rows that needed slack are relaxed by
a multiple of it.

## Main definitions

* `Master.repairRows`: The rows that may be relaxed.
* `Master.relaxRow`: Relaxing one row.
* `Master.repair`: Relaxing all that need it.
-/

namespace OuterApprox

namespace Master

variable {α σ : Type} [Scalar α]

/-- The rows that may be relaxed: those of entries that still count and do not
    hold everywhere, the first ones up to the limit. -/
def repairRows (m : Master α σ) : List Nat :=
  ((m.store.ledger.entries.filter fun e => !e.removed && !e.convex).filterMap (·.row)).take
    m.session.settings.dual.repairMaxRows

/-- The price of slack on a row. -/
def repairPrice (row : Nat) : α := 1.0 / (Scalar.ofNat row + 1.0)

/-- Relax a row that needed slack. The count goes up if it worked. -/
def relaxRow (E : Engine α σ) (factor : α) (acc : Master α σ × Nat) (target : Nat × α) :
    Master α σ × Nat :=
  let (m, count) := acc
  let (row, slack) := target
  if slack ≤ 0.0 then (m, count)
  else
    match E.rowUpper m.engine row with
    | .error e => (m.note [.rowReadFailed row e], count)
    | .ok upper =>
      let relaxed := upper + factor * slack
      let (engine, answer) := E.setRowUpper m.engine row relaxed
      let m := { m with engine }
      match answer with
      | .ok () => (m.note [.rowRelaxed row upper relaxed], count + 1)
      | .error e => (m.note [.rowWriteFailed row e], count)

/-- Relax the rows that an elastic solution gave slack to. -/
def relaxRows (E : Engine α σ) (m : Master α σ) (rows : List Nat) (slacks : List α) :
    Master α σ :=
  let (m, count) :=
    (rows.zip slacks).foldl (relaxRow E m.session.settings.dual.repairSlackFactor) (m, 0)
  let m := m.note [.repaired count]
  { m with session := m.session.modifyIteration fun it => { it with repaired := true } }

/-- Relax rows until the model is feasible. The second component tells whether
    there was anything to relax and an elastic optimum to go by. -/
def repair (E : Engine α σ) (m : Master α σ) : Master α σ × Bool :=
  if m.store.ledger.entries.isEmpty then (m, false)
  else
    let rows := m.repairRows
    if rows.isEmpty then (m.note [.nothingToRepair], false)
    else
      let (engine, answer) := E.elastic m.engine rows (rows.map repairPrice)
      let m := { m with engine }
      match answer with
      | .error e => (m.note [.elasticFailed e], false)
      | .ok solution =>
        if solution.status = .optimal then (m.relaxRows E rows solution.slacks, true)
        else (m.note [.notRepairable], false)

end Master

end OuterApprox
