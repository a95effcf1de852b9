import FinestVX.Persistence.Reversal

/-!
# Racing reversals

`append_reversal` asks whether the original is already reversed before it begins its
transaction, under a lock of its own process.  On several stores of one file the
statements of the calls interleave, and a reversal can be committed between the
question and the transaction of another call.  Where that does not happen at most one
of the calls commits, and it does what it does alone.

## Main definitions

* `ReversalCall`, `Pc`, `Race` — the calls, where each of them is, and the file.
* `Race.advance`, `RaceStep` — the next statement of a call, and a step of the race.
* `Undisturbed` — the condition on a step.

## Main results

* `commits_once_of_undisturbed` — **of any number of racing calls at most one
  commits**, where the steps meet the condition.
* `Reference.both_commit` — two calls that both commit.
-/

namespace FinestVX

open Except Relation

section

variable [Platform]

/-! ### The statements -/

/-- A call of `append_reversal` on a store of its own, all of them for one book and one
original. -/
structure ReversalCall where
  ctx : AuditContext
  clock : ℕ → ℤ := fun _ => 0
  reference : String

/-- The environment of a call, without faults. -/
def ReversalCall.world (c : ReversalCall) : World := { clock := c.clock }

/-- Where a call is: the statement that comes next, and what was read so far. -/
inductive Pc
  /-- `SELECT` of the original. -/
  | start
  /-- `SELECT` of the book, after the original was not found. -/
  | missing
  /-- `SELECT` of a reversal of the original. -/
  | found (row : TransactionRow)
  /-- `SELECT` of the reference of the reversal. -/
  | unreversed (row : TransactionRow)
  /-- `SELECT` of the entries of the original. -/
  | unused (row : TransactionRow)
  /-- `BEGIN IMMEDIATE` -/
  | ready (t : JournalTransaction)
  /-- `INSERT` number `i`, or `COMMIT` after the last one. -/
  | writing (i : ℕ) (rest : List CoreRow) (db : Database)
  | committed
  | raised (e : PyError)

namespace Pc

/-- The call has found no reversal and has not begun its transaction. -/
def Checked : Pc → Prop
  | unreversed _ | unused _ | ready _ => True
  | _ => False

/-- The call has not got past the question whether the original is reversed. -/
def Early : Pc → Prop
  | start | missing | found _ | raised _ => True
  | _ => False

theorem early_of_not {pc : Pc} (hchecked : ¬ pc.Checked) (hcommitted : pc ≠ .committed)
    (hwriting : ∀ i rest db, pc ≠ .writing i rest db) : pc.Early := by
  cases pc with
  | start => trivial
  | missing => trivial
  | found row => trivial
  | unreversed row => exact (hchecked trivial).elim
  | unused row => exact (hchecked trivial).elim
  | ready t => exact (hchecked trivial).elim
  | writing i rest db => exact (hwriting i rest db rfl).elim
  | committed => exact (hcommitted rfl).elim
  | raised e => trivial

/-- The call is over. -/
def Finished : Pc → Prop
  | committed | raised _ => True
  | _ => False

end Pc

/-- The file as it is committed, the holder of the write lock, and the calls. -/
structure Race (ι : Type) where
  db : Database
  lock : Option ι
  pc : ι → Pc

variable {ι : Type} [DecidableEq ι]

namespace Race

/-- No call has started. -/
def init (db : Database) : Race ι := ⟨db, none, fun _ => .start⟩

/-- A call moves on, with the lock as it is then. -/
def move (s : Race ι) (p : ι) (pc : Pc) (lock : Option ι) : Race ι :=
  { s with lock := lock, pc := Function.update s.pc p pc }

/-- A call goes on to another statement. -/
def goto (s : Race ι) (p : ι) (pc : Pc) : Race ι := s.move p pc s.lock

/-- A call raises; its transaction is rolled back. -/
def raise (s : Race ι) (p : ι) (e : PyError) : Race ι :=
  s.move p (.raised e) (if s.lock = some p then none else s.lock)

/-- The next statement of a call.  A query sees the file as it is committed; a call
waits at `BEGIN` while another one holds the lock. -/
def advance (calls : ι → ReversalCall) (code o : String) (s : Race ι) (p : ι) :
    Option (Race ι) :=
  match s.pc p with
  | .start =>
    match findTransaction code o s.db.tables with
    | none => some (s.goto p .missing)
    | some row => some (s.goto p (.found row))
  | .missing =>
    if s.db.tables.HasBook code then
      some (s.raise p (.valueError
        s!"Transaction {strRepr o} not found in book {strRepr code}"))
    else some (s.raise p (.keyError s!"Unknown book: {code}"))
  | .found row =>
    if ∃ x ∈ s.db.tables.transactions, x.bookCode = code ∧ x.reversalOf = some o then
      some (s.raise p (.valueError
        s!"Transaction {strRepr o} in book {strRepr code} is already reversed"))
    else some (s.goto p (.unreversed row))
  | .unreversed row =>
    if ∃ x ∈ s.db.tables.transactions, x.bookCode = code ∧ x.reference = (calls p).reference then
      some (s.raise p (.valueError
        s!"Reversal reference {strRepr (calls p).reference} is already in use in book {strRepr code}"))
    else some (s.goto p (.unused row))
  | .unused row =>
    match transactionFromMapping
        { row.toPayload (selectEntries code o s.db.tables) with reference := o } >>=
          fun original => reversalOfTransaction original o (calls p).reference with
    | .ok t => some (s.goto p (.ready t))
    | .error e => some (s.raise p e)
  | .ready t =>
    if s.lock = none then
      some (s.move p (.writing 0 (transactionRows code t) s.db) (some p))
    else none
  | .writing i (r :: rest) db =>
    match execute (calls p).ctx ((calls p).clock i) r db with
    | .ok db => some (s.goto p (.writing (i + 1) rest db))
    | .error e => some (s.raise p e)
  | .writing _ [] db =>
    if db.tables.ParentsExist then
      some { s.move p .committed none with db := db }
    else some (s.raise p (.constraintError "FOREIGN KEY constraint failed"))
  | .committed => none
  | .raised _ => none

@[simp] theorem pc_move_self (s : Race ι) (p : ι) (pc : Pc) (lock : Option ι) :
    (s.move p pc lock).pc p = pc :=
  Function.update_self ..

theorem pc_move_of_ne (s : Race ι) {p q : ι} (h : q ≠ p) (pc : Pc) (lock : Option ι) :
    (s.move p pc lock).pc q = s.pc q :=
  Function.update_of_ne h ..

end Race

/-- A step of the race: the next statement of a call, or a fault in it. -/
inductive RaceStep (calls : ι → ReversalCall) (code o : String) (s : Race ι) (p : ι) :
    Race ι → Prop
  | advance {s' : Race ι} (h : s.advance calls code o p = some s') : RaceStep calls code o s p s'
  | fault (e : PyError) (h : ¬ (s.pc p).Finished) : RaceStep calls code o s p (s.raise p e)

/-- The step is no commit of `p` while another call has found no reversal and has not
begun its transaction. -/
def Undisturbed (s : Race ι) (p : ι) (s' : Race ι) : Prop :=
  s'.pc p = .committed → ∀ q, q ≠ p → ¬ (s.pc q).Checked

/-- The interleavings of the calls. -/
def Interleaving (calls : ι → ReversalCall) (code o : String) : Race ι → Race ι → Prop :=
  ReflTransGen fun s s' => ∃ p, RaceStep calls code o s p s'

/-- The interleavings whose steps meet the condition. -/
def UndisturbedInterleaving (calls : ι → ReversalCall) (code o : String) :
    Race ι → Race ι → Prop :=
  ReflTransGen fun s s' => ∃ p, RaceStep calls code o s p s' ∧ Undisturbed s p s'

/-! ### One call alone -/

/-- What a call has computed so far is what it computes on `db₀` alone. -/
def Sequential (c : ReversalCall) (code o : String) (db₀ : Database) : Pc → Prop
  | .start | .missing | .committed | .raised _ => True
  | .found row => findTransaction code o db₀.tables = some row
  | .unreversed row => findTransaction code o db₀.tables = some row ∧
      ¬ ∃ x ∈ db₀.tables.transactions, x.bookCode = code ∧ x.reversalOf = some o
  | .unused row => reversalChecks code o c.reference db₀.tables = .ok row
  | .ready t => reversalTransaction c.world code o c.reference db₀.tables = .ok t
  | .writing i rest db => ∃ t,
      reversalTransaction c.world code o c.reference db₀.tables = .ok t ∧
        insertRows c.world c.ctx 0 (transactionRows code t) db₀ =
          insertRows c.world c.ctx i rest db

omit [DecidableEq ι] in
/-- A call that has inserted its rows commits what `append_reversal` alone writes. -/
theorem Sequential.commits {c : ReversalCall} {code o : String} {db₀ db : Database} {i : ℕ}
    (h : Sequential c code o db₀ (.writing i [] db)) (hparents : db.tables.ParentsExist) :
    ∃ receipt, appendReversal c.world c.ctx code o c.reference db₀ = (.ok receipt, db) := by
  obtain ⟨t, ht, hrows⟩ := h
  refine ⟨buildWriteReceipt (transactionRows code t), ?_⟩
  rw [appendReversal, ht]
  exact writeRows_of_insertRows rfl rfl hrows hparents

/-- The references of the stored transactions are normalised. -/
def NormalReferences (t : Tables) : Prop :=
  ∀ x ∈ t.transactions, ∀ f, requireNonEmptyStr x.reference f = .ok x.reference

omit [DecidableEq ι] in
theorem Reachable.normalReferences {db : Database} (h : Reachable db) :
    NormalReferences db.tables := by
  obtain ⟨σ, hσ⟩ := h.refines
  intro x hx f
  obtain ⟨b, y, -, -, href⟩ := hσ.exists_of_mem hx
  rw [← href]
  exact y.valid.reference f

omit [DecidableEq ι] in
/-- After a reversal the original is reversed. -/
theorem exists_reversal_of_appendReversal {w : World} {ctx : AuditContext} {code o r : String}
    {db db' : Database} {receipt : StoreWriteReceipt} (hnorm : NormalReferences db.tables)
    (h : appendReversal w ctx code o r db = (.ok receipt, db')) :
    ∃ x ∈ db'.tables.transactions, x.bookCode = code ∧ x.reversalOf = some o := by
  obtain ⟨t, ht, h⟩ := orRaise_ok h
  obtain ⟨-, -, rfl⟩ := writeRows_ok h
  obtain ⟨_, -, ht⟩ := bind_eq_ok.mp ht
  obtain ⟨row, hchecks, ht⟩ := bind_eq_ok.mp ht
  obtain ⟨original, -, ht⟩ := bind_eq_ok.mp ht
  have ho : requireNonEmptyStr o "reversal_of" = .ok o := by
    unfold reversalChecks at hchecks
    split at hchecks
    · split at hchecks <;> cases hchecks
    next row' hfind =>
    unfold findTransaction at hfind
    have href := List.find?_some hfind
    rw [← (of_decide_eq_true href).2]
    exact hnorm row' (List.mem_of_find?_eq_some hfind) _
  refine ⟨transactionRow code t, ?_, rfl, reversalOf_of_reversal ho ht⟩
  rw [Database.tables_insertAll, pushAll_transactionRows]
  simp

/-! ### The invariant -/

variable {calls : ι → ReversalCall} {code o : String} {db₀ : Database} {s s' : Race ι} {p : ι}

/-- No call has committed. -/
structure Race.Open (calls : ι → ReversalCall) (code o : String) (db₀ : Database)
    (s : Race ι) : Prop where
  db : s.db = db₀
  notCommitted : ∀ p, s.pc p ≠ .committed
  sequential : ∀ p, Sequential (calls p) code o db₀ (s.pc p)
  lock : ∀ p i rest db, s.pc p = .writing i rest db → s.lock = some p

/-- The call `p` has committed, and no other call will. -/
structure Race.Closed (calls : ι → ReversalCall) (code o : String) (db₀ : Database)
    (p : ι) (s : Race ι) : Prop where
  committed : s.pc p = .committed
  result : ∃ receipt, appendReversal (calls p).world (calls p).ctx code o (calls p).reference
    db₀ = (.ok receipt, s.db)
  reversed : ∃ x ∈ s.db.tables.transactions, x.bookCode = code ∧ x.reversalOf = some o
  others : ∀ q, q ≠ p → (s.pc q).Early

namespace Race

omit [DecidableEq ι] in
theorem open_init (calls : ι → ReversalCall) (code o : String) (db₀ : Database) :
    Open calls code o db₀ (init db₀ : Race ι) :=
  ⟨rfl, fun _ => by simp [init], fun _ => trivial, fun _ _ _ _ => by simp [init]⟩

/-- A call moves on, and takes the lock from no other call. -/
theorem Open.move (h : Open calls code o db₀ s) {pc : Pc} {lock : Option ι}
    (hpc : pc ≠ .committed) (hseq : Sequential (calls p) code o db₀ pc)
    (hself : ∀ i rest db, pc = .writing i rest db → lock = some p)
    (hother : ∀ q, q ≠ p → s.lock = some q → lock = some q) :
    Open calls code o db₀ (s.move p pc lock) where
  db := h.db
  notCommitted q := by
    by_cases hq : q = p
    · subst hq
      rwa [pc_move_self]
    · rw [pc_move_of_ne s hq]
      exact h.notCommitted q
  sequential q := by
    by_cases hq : q = p
    · subst hq
      rwa [pc_move_self]
    · rw [pc_move_of_ne s hq]
      exact h.sequential q
  lock q i rest db hw := by
    by_cases hq : q = p
    · subst hq
      rw [pc_move_self] at hw
      exact hself i rest db hw
    · rw [pc_move_of_ne s hq] at hw
      exact hother q hq (h.lock q i rest db hw)

theorem Open.goto (h : Open calls code o db₀ s) {pc : Pc} (hpc : pc ≠ .committed)
    (hseq : Sequential (calls p) code o db₀ pc)
    (hself : ∀ i rest db, pc = .writing i rest db → s.lock = some p) :
    Open calls code o db₀ (s.goto p pc) :=
  h.move hpc hseq hself fun _ _ hq => hq

theorem Open.raise (h : Open calls code o db₀ s) (e : PyError) :
    Open calls code o db₀ (s.raise p e) := by
  refine h.move (by simp) trivial (by simp) ?_
  intro q hq hlock
  -- raising takes the lock from nobody else
  have hne : s.lock ≠ some p := by
    rw [hlock]
    intro heq
    exact hq (Option.some.inj heq)
  rw [if_neg hne, hlock]

/-- The first commit ends the race. -/
theorem Open.commit (hnorm : NormalReferences db₀.tables) (h : Open calls code o db₀ s) {i : ℕ}
    {db : Database} (hpc : s.pc p = .writing i [] db) (hparents : db.tables.ParentsExist)
    (hothers : ∀ q, q ≠ p → ¬ (s.pc q).Checked) :
    Closed calls code o db₀ p { s.move p .committed none with db := db } := by
  have hseq := h.sequential p
  rw [hpc] at hseq
  obtain ⟨receipt, hresult⟩ := hseq.commits hparents
  refine ⟨pc_move_self s p .committed none, ⟨receipt, hresult⟩,
    exists_reversal_of_appendReversal hnorm hresult, ?_⟩
  -- another call is neither past the question nor inside its transaction
  intro q hq
  change ((s.move p .committed none).pc q).Early
  rw [pc_move_of_ne s hq]
  apply Pc.early_of_not (hothers q hq) (h.notCommitted q)
  intro i' rest' db' hpcq
  have hlock := h.lock p i [] db hpc
  rw [h.lock q i' rest' db' hpcq] at hlock
  exact hq (Option.some.inj hlock)

/-- Before the first commit every statement computes what the call computes alone; the
first commit ends the race. -/
theorem Open.advance (hnorm : NormalReferences db₀.tables) (h : Open calls code o db₀ s)
    (hstep : s.advance calls code o p = some s') (hundisturbed : Undisturbed s p s') :
    Open calls code o db₀ s' ∨ Closed calls code o db₀ p s' := by
  have hseq := h.sequential p
  -- one case per statement; nothing is committed yet, so every query reads `db₀`
  cases hpc : s.pc p with
  | start =>
    simp only [Race.advance, hpc, h.db] at hstep
    split at hstep
    · cases hstep
      exact .inl (h.goto (by simp) trivial (by simp))
    · next row hrow =>
      cases hstep
      exact .inl (h.goto (by simp) hrow (by simp))
  | missing =>
    simp only [Race.advance, hpc] at hstep
    split at hstep <;> cases hstep <;> exact .inl (h.raise _)
  | found row =>
    rw [hpc] at hseq
    simp only [Race.advance, hpc, h.db] at hstep
    split at hstep
    · cases hstep
      exact .inl (h.raise _)
    · next hnone =>
      cases hstep
      exact .inl (h.goto (by simp) ⟨hseq, hnone⟩ (by simp))
  | unreversed row =>
    rw [hpc] at hseq
    simp only [Race.advance, hpc, h.db] at hstep
    split at hstep
    · cases hstep
      exact .inl (h.raise _)
    · next hunused =>
      cases hstep
      refine .inl (h.goto (by simp) ?_ (by simp))
      obtain ⟨hrow, hnone⟩ := hseq
      simp only [Sequential, reversalChecks, hrow, if_neg hnone, if_neg hunused]
  | unused row =>
    rw [hpc] at hseq
    simp only [Race.advance, hpc, h.db] at hstep
    split at hstep
    · next t ht =>
      cases hstep
      refine .inl (h.goto (by simp) ?_ (by simp))
      simp only [Sequential, reversalTransaction, ReversalCall.world, raising_none, ok_bind]
      rw [show reversalChecks code o (calls p).reference db₀.tables = _ from hseq, ok_bind]
      exact ht
    · cases hstep
      exact .inl (h.raise _)
  | ready t =>
    rw [hpc] at hseq
    simp only [Race.advance, hpc] at hstep
    split at hstep
    · next hfree =>
      cases hstep
      -- `BEGIN IMMEDIATE`: the lock was free, so it is taken from nobody
      refine .inl (h.move (by simp) ?_ (fun _ _ _ _ => rfl) ?_)
      · exact ⟨t, hseq, by rw [h.db]⟩
      · intro q _ hq
        rw [hfree] at hq
        cases hq
    · cases hstep
  | writing i rest db =>
    rw [hpc] at hseq
    have hlock := h.lock p i rest db hpc
    cases rest with
    | cons r rest =>
      simp only [Race.advance, hpc] at hstep
      split at hstep
      · next db' hexec =>
        cases hstep
        refine .inl (h.goto (by simp) ?_ fun _ _ _ _ => hlock)
        obtain ⟨t, ht, hrows⟩ := hseq
        refine ⟨t, ht, ?_⟩
        rw [hrows, insertRows, ReversalCall.world, raising_none, ok_bind, hexec, ok_bind]
      · cases hstep
        exact .inl (h.raise _)
    | nil =>
      simp only [Race.advance, hpc] at hstep
      split at hstep
      · next hparents =>
        cases hstep
        have hself := pc_move_self s p .committed none
        exact .inr (h.commit hnorm hpc hparents (hundisturbed hself))
      · cases hstep
        exact .inl (h.raise _)
  | committed => exact absurd hpc (h.notCommitted p)
  | raised e =>
    simp only [Race.advance, hpc] at hstep
    cases hstep

theorem Closed.move {winner : ι} (h : Closed calls code o db₀ winner s) (hne : p ≠ winner)
    {pc : Pc} (lock : Option ι) (hpc : pc.Early) :
    Closed calls code o db₀ winner (s.move p pc lock) where
  committed := by
    rw [pc_move_of_ne s hne.symm]
    exact h.committed
  result := h.result
  reversed := h.reversed
  others q hq := by
    by_cases hqp : q = p
    · subst hqp
      rwa [pc_move_self]
    · rw [pc_move_of_ne s hqp]
      exact h.others q hq

/-- After the first commit every other call that asks whether the original is reversed
raises. -/
theorem Closed.advance {winner : ι} (h : Closed calls code o db₀ winner s)
    (hstep : s.advance calls code o p = some s') : Closed calls code o db₀ winner s' := by
  have hne : p ≠ winner := by
    rintro rfl
    simp only [Race.advance, h.committed] at hstep
    cases hstep
  have hearly := h.others p hne
  -- the other calls have the question still before them, and it is answered now
  cases hpc : s.pc p with
  | start =>
    simp only [Race.advance, hpc] at hstep
    split at hstep <;> cases hstep <;> exact h.move hne _ trivial
  | missing =>
    simp only [Race.advance, hpc] at hstep
    split at hstep <;> cases hstep <;> exact h.move hne _ trivial
  | found row =>
    simp only [Race.advance, hpc, if_pos h.reversed] at hstep
    cases hstep
    exact h.move hne _ trivial
  | raised e =>
    simp only [Race.advance, hpc] at hstep
    cases hstep
  | unreversed row => exact (hpc ▸ hearly).elim
  | unused row => exact (hpc ▸ hearly).elim
  | ready t => exact (hpc ▸ hearly).elim
  | writing i rest db => exact (hpc ▸ hearly).elim
  | committed => exact (hpc ▸ hearly).elim

/-- What holds throughout an undisturbed interleaving. -/
theorem open_or_closed (hnorm : NormalReferences db₀.tables)
    (h : UndisturbedInterleaving calls code o (init db₀) s) :
    Open calls code o db₀ s ∨ ∃ p, Closed calls code o db₀ p s := by
  refine invariant_of_step
    (p := fun s => Open calls code o db₀ s ∨ ∃ p, Closed calls code o db₀ p s)
    h (.inl (open_init calls code o db₀)) ?_
  rintro s s' hs ⟨p, hstep, hundisturbed⟩
  rcases hs with hopen | ⟨winner, hclosed⟩
  · cases hstep with
    | advance hadvance =>
      rcases hopen.advance hnorm hadvance hundisturbed with hopen' | hclosed
      · exact .inl hopen'
      · exact .inr ⟨p, hclosed⟩
    | fault e _ => exact .inl (hopen.raise e)
  · refine .inr ⟨winner, ?_⟩
    cases hstep with
    | advance hadvance => exact hclosed.advance hadvance
    | fault e hrunning =>
      refine hclosed.move ?_ _ trivial
      rintro rfl
      exact hrunning (hclosed.committed ▸ trivial)

end Race

/-- **Of any number of racing reversals at most one commits**, if no commit is made
while another call has found no reversal and has not begun its transaction; and the
file is then what that call alone makes of it. -/
theorem commits_once_of_undisturbed (hnorm : NormalReferences db₀.tables)
    (h : UndisturbedInterleaving calls code o (Race.init db₀) s) :
    (∀ p q, s.pc p = .committed → s.pc q = .committed → p = q) ∧
    ∀ p, s.pc p = .committed → ∃ receipt,
      appendReversal (calls p).world (calls p).ctx code o (calls p).reference db₀ =
        (.ok receipt, s.db) := by
  rcases Race.open_or_closed hnorm h with hopen | ⟨winner, hclosed⟩
  · exact ⟨fun p _ hp => absurd hp (hopen.notCommitted p),
      fun p hp => absurd hp (hopen.notCommitted p)⟩
  · have hwinner : ∀ p, s.pc p = .committed → p = winner := by
      intro p hp
      by_contra hne
      have hearly := hclosed.others p hne
      rw [hp] at hearly
      exact hearly
    refine ⟨fun p q hp hq => (hwinner p hp).trans (hwinner q hq).symm, fun p hp => ?_⟩
    rw [hwinner p hp]
    exact hclosed.result

/-! ### Schedules -/

namespace Race

/-- Execute statements of the calls in the given order. -/
def runSchedule (calls : ι → ReversalCall) (code o : String) :
    List ι → Race ι → Option (Race ι)
  | [], s => some s
  | p :: schedule, s => (s.advance calls code o p).bind (runSchedule calls code o schedule)

theorem interleaving_of_runSchedule {schedule : List ι}
    (h : runSchedule calls code o schedule s = some s') : Interleaving calls code o s s' := by
  induction schedule generalizing s with
  | nil =>
    cases h
    exact .refl
  | cons p schedule ih =>
    obtain ⟨s₁, hadvance, h⟩ := Option.bind_eq_some_iff.mp h
    exact .head ⟨p, .advance hadvance⟩ (ih h)

theorem pc_advance_of_ne {q : ι} (hq : q ≠ p) (h : s.advance calls code o p = some s') :
    s'.pc q = s.pc q := by
  unfold advance at h
  split at h <;> (try split at h) <;> cases h <;> exact Function.update_of_ne hq _ _

/-- A call that runs while the others have not started is undisturbed. -/
theorem undisturbed_of_solo {n : ℕ} (hothers : ∀ q, q ≠ p → s.pc q = .start)
    (h : runSchedule calls code o (List.replicate n p) s = some s') :
    UndisturbedInterleaving calls code o s s' := by
  induction n generalizing s with
  | zero =>
    cases h
    exact .refl
  | succ n ih =>
    rw [List.replicate_succ] at h
    obtain ⟨s₁, hadvance, h⟩ := Option.bind_eq_some_iff.mp h
    have hundisturbed : Undisturbed s p s₁ := by
      intro _ q hq
      rw [hothers q hq]
      exact id
    refine .head ⟨p, .advance hadvance, hundisturbed⟩ (ih (fun q hq => ?_) h)
    rw [pc_advance_of_ne hq hadvance, hothers q hq]

/-- A call that does not commit disturbs none. -/
theorem undisturbed_of_uncommitted {n : ℕ} (hend : s'.pc p ≠ .committed)
    (h : runSchedule calls code o (List.replicate n p) s = some s') :
    UndisturbedInterleaving calls code o s s' := by
  induction n generalizing s with
  | zero =>
    cases h
    exact .refl
  | succ n ih =>
    rw [List.replicate_succ] at h
    obtain ⟨s₁, hadvance, h⟩ := Option.bind_eq_some_iff.mp h
    refine .head ⟨p, .advance hadvance, fun hcommitted => ?_⟩ (ih h)
    -- a commit would have been the last statement of the call
    exfalso
    cases n with
    | zero =>
      cases h
      exact hend hcommitted
    | succ n =>
      rw [List.replicate_succ, runSchedule, advance, hcommitted] at h
      cases h

end Race

end

/-! ### Evaluated -/

namespace Reference

/-- Two stores that reverse one sale, under different references. -/
def racers : Bool → ReversalCall
  | false => { ctx := auditor, reference := "R1" }
  | true => { ctx := auditor, reference := "R2" }

/-- The first call, from its first query to its commit. -/
def solo : List Bool := List.replicate 9 false

/-- Both calls ask their questions before either begins its transaction. -/
def overlapping : List Bool :=
  List.replicate 4 false ++ List.replicate 4 true ++ List.replicate 5 false ++ List.replicate 5 true

/-- The other call, which asks after the commit and is refused. -/
def late : List Bool := List.replicate 2 true

theorem commits_once_solo : ∃ s : Race Bool,
    (∀ p q, s.pc p = .committed → s.pc q = .committed → p = q) ∧
    (s.pc false = .committed ∧
      s.pc true = .raised (.valueError "Transaction 'T1' in book 'BK' is already reversed")) ∧
    ∀ p, s.pc p = .committed → ∃ receipt,
      appendReversal (racers p).world (racers p).ctx "BK" "T1" (racers p).reference saleStored =
        (.ok receipt, s.db) := by
  have hreach : Reachable saleStored := Reachable.empty.after _
  have hend : ((Race.runSchedule racers "BK" "T1" solo (Race.init saleStored)).bind fun s =>
      (Race.runSchedule racers "BK" "T1" late s).map fun s' => (s'.pc false, s'.pc true)) =
      some (.committed,
        .raised (.valueError "Transaction 'T1' in book 'BK' is already reversed")) := by rfl
  obtain ⟨s, hs, hlate⟩ := Option.bind_eq_some_iff.mp hend
  obtain ⟨s', hs', hphases⟩ := Option.map_eq_some_iff.mp hlate
  obtain ⟨hcommitted, hraised⟩ := Prod.mk.inj hphases
  have hfirst := Race.undisturbed_of_solo (fun _ _ => rfl) hs
  have hsecond := Race.undisturbed_of_uncommitted (by simp [hraised]) hs'
  obtain ⟨honce, hresult⟩ := commits_once_of_undisturbed hreach.normalReferences
    (hfirst.trans hsecond)
  exact ⟨s', honce, ⟨hcommitted, hraised⟩, hresult⟩

/-- Two reversals of one sale are both committed, under references that are different
and not in use. -/
theorem both_commit : (racers false).reference ≠ (racers true).reference ∧
    (∀ p, ¬ ∃ x ∈ saleStored.tables.transactions,
      x.bookCode = "BK" ∧ x.reference = (racers p).reference) ∧
    ∃ s, Interleaving racers "BK" "T1" (Race.init saleStored) s ∧
      s.pc false = .committed ∧ s.pc true = .committed := by
  refine ⟨by decide, by decide, ?_⟩
  have hend : (Race.runSchedule racers "BK" "T1" overlapping (Race.init saleStored)).map
      (fun s => (s.pc false, s.pc true)) = some (.committed, .committed) := by rfl
  obtain ⟨s, hs, hcommitted⟩ := Option.map_eq_some_iff.mp hend
  obtain ⟨hfirst, hsecond⟩ := Prod.mk.inj hcommitted
  exact ⟨s, Race.interleaving_of_runSchedule hs, hfirst, hsecond⟩

end Reference

end FinestVX
