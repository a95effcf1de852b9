import FinestVX.Lib.Effects
import FinestVX.Persistence.Calls

/-!
# Writes handed to the runtime

A caller of the runtime sees one of three things become of its write: the command is not put
on the queue, the writer executes it and the call gets the result, or the call stops waiting
and does not know.

## Main definitions

* `Submission` — what becomes of a write.
* `Submission.submit` — the write as a computation on the database.
* `Submission.Commits` — the writer executes the command, and its transaction commits.

## Main results

* `Submission.run_submit_of_not_commits` — a write that is not made raises.
* `Submission.run_submit_of_commits` — a write that is made inserts the rows of its operation.
-/

namespace FinestVX

open Except

variable [Platform]

/-- What becomes of a write that is handed to the runtime. -/
inductive Submission
  /-- The call does not put its command on the queue. -/
  | refused (e : PyError)
  /-- The writer executes the command, and the call waits for the result. -/
  | served (w : World)
  /-- The call stops waiting; the writer executes the command all the same, or never. -/
  | abandoned (e : PyError) (w : Option World)

namespace Submission

/-- Hand a write to the runtime. -/
def submit (s : Submission) (op : Op) (ctx : AuditContext) :
    Procedure PyError Database StoreWriteReceipt where
  run db :=
    match s with
    | refused e => (.error e, db)
    | served w => Call.run ⟨op, ctx, w⟩ db
    | abandoned e none => (.error e, db)
    | abandoned e (some w) => (.error e, Call.after ⟨op, ctx, w⟩ db)

/-- The writer executes the command, and its transaction commits. -/
def Commits (op : Op) (ctx : AuditContext) (db : Database) : Submission → Prop
  | refused _ => False
  | served w => Call.Returns ⟨op, ctx, w⟩ db
  | abandoned _ none => False
  | abandoned _ (some w) => Call.Returns ⟨op, ctx, w⟩ db

/-- The writer executes the command in time. -/
def IsServed : Submission → Prop
  | served _ => True
  | _ => False

/-- The writer executes the command in time, without a fault at `BEGIN`, at its one
`INSERT` or at `COMMIT`. -/
def Faultless : Submission → Prop
  | served w => w.beginFault = none ∧ w.insertFault 0 = none ∧ w.commitFault = none
  | _ => False

variable {s : Submission} {op : Op} {ctx : AuditContext} {db : Database}

/-- The call returns when the writer serves it in time and the write is made. -/
theorem submit_succeeds_iff :
    ((s.submit op ctx).run db).1.Succeeds ↔ s.IsServed ∧ s.Commits op ctx db := by
  cases s with
  | refused e => exact ⟨fun h => (not_succeeds_error e h).elim, fun h => h.1.elim⟩
  | served w => exact ⟨fun h => ⟨trivial, h⟩, fun h => h.2⟩
  | abandoned e w =>
    refine ⟨fun h => ?_, fun h => h.1.elim⟩
    cases w with
    | none => exact (not_succeeds_error e h).elim
    | some w => exact (not_succeeds_error e h).elim

/-- A write that is not made raises. -/
theorem run_submit_of_not_commits (h : ¬ s.Commits op ctx db) :
    ∃ e, (s.submit op ctx).run db = (.error e, db) := by
  have hraises : ∀ w, ¬ Call.Returns ⟨op, ctx, w⟩ db →
      ∃ e, Call.run ⟨op, ctx, w⟩ db = (.error e, db) := by
    intro w hnot
    cases hrun : Call.run ⟨op, ctx, w⟩ db with
    | mk outcome db' =>
      cases outcome with
      | ok receipt => exact (hnot ⟨receipt, by rw [hrun]⟩).elim
      | error e => exact ⟨e, by rw [Call.run_error hrun]⟩
  cases s with
  | refused e => exact ⟨e, rfl⟩
  | served w => exact hraises w h
  | abandoned e w =>
    cases w with
    | none => exact ⟨e, rfl⟩
    | some w =>
      obtain ⟨e', hrun⟩ := hraises w h
      exact ⟨e, congrArg (fun r => (Except.error e, r.2)) hrun⟩

/-- A write that is made inserts the rows of its operation; the call returns when the
writer has served it in time. -/
theorem run_submit_of_commits (h : s.Commits op ctx db) :
    ∃ c db' rows, c.op = op ∧ c.ctx = ctx ∧ Writes db.tables op rows ∧ db.tables.AdmitsAll rows ∧
      (db.tables.pushAll rows).ParentsExist ∧ Effect c db rows db' ∧
      ((s.IsServed ∧ ∃ receipt, (s.submit op ctx).run db = (.ok receipt, db')) ∨
        (¬ s.IsServed ∧ ∃ e, (s.submit op ctx).run db = (.error e, db'))) := by
  have hreturns : ∀ w, Call.Returns ⟨op, ctx, w⟩ db →
      ∃ receipt db' rows, Call.run ⟨op, ctx, w⟩ db = (.ok receipt, db') ∧
        Writes db.tables op rows ∧ db.tables.AdmitsAll rows ∧
        (db.tables.pushAll rows).ParentsExist ∧ Effect ⟨op, ctx, w⟩ db rows db' := by
    rintro w ⟨receipt, hreceipt⟩
    have hrun : Call.run ⟨op, ctx, w⟩ db = (.ok receipt, (Call.run ⟨op, ctx, w⟩ db).2) :=
      Prod.ext hreceipt rfl
    obtain ⟨rows, hwrites, hadmits, hparents, heffect⟩ := Call.run_ok hrun
    exact ⟨receipt, _, rows, hrun, hwrites, hadmits, hparents, heffect⟩
  cases s with
  | refused e => exact h.elim
  | served w =>
    obtain ⟨receipt, db', rows, hrun, hwrites, hadmits, hparents, heffect⟩ := hreturns w h
    exact ⟨_, db', rows, rfl, rfl, hwrites, hadmits, hparents, heffect,
      .inl ⟨trivial, receipt, hrun⟩⟩
  | abandoned e w =>
    cases w with
    | none => exact h.elim
    | some w =>
      obtain ⟨receipt, db', rows, hrun, hwrites, hadmits, hparents, heffect⟩ := hreturns w h
      exact ⟨_, db', rows, rfl, rfl, hwrites, hadmits, hparents, heffect,
        .inr ⟨id, e, congrArg (fun r => (Except.error e, r.2)) hrun⟩⟩

/-- A write that is made is a call that returns. -/
theorem after_of_commits (h : s.Commits op ctx db) : ∃ w, Call.Returns ⟨op, ctx, w⟩ db ∧
    ((s.submit op ctx).run db).2 = Call.after ⟨op, ctx, w⟩ db := by
  cases s with
  | refused e => exact h.elim
  | served w => exact ⟨w, h, rfl⟩
  | abandoned e w =>
    cases w with
    | none => exact h.elim
    | some w => exact ⟨w, h, rfl⟩

end Submission

end FinestVX
