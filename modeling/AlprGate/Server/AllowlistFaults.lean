import AlprGate.Library.Transactions
import AlprGate.Server.AllowlistHistory

/-! # Mutators of the store when statements fail

The calls that take several plates, statement by statement. Any statement may fail; a failed one
changes nothing and most of them end the call with an exception. `upsert` and `remove` run in a
transaction and roll back, `blocklist_remove` deletes plate after plate without one. When nothing
fails the calls are those of the store.
-/
namespace AlprGate.Auth
open Transactions

/-- The statements of the mutators. `refuse` stands where `upsert` finds an empty plate. -/
inductive Statement where
  | begin
  | commit
  | prepare
  | refuse
  | count (siteId plate : Text)
  | upsertMain (row : AllowlistRow)
  | delClasses (siteId plate : Text)
  | insClass (row : ClassRow)
  | delWindows (siteId plate : Text)
  | insWindow (row : WindowRow)
  | removePlate (siteId raw : Text)
  | blocklistRemovePlate (siteId raw : Text)
  deriving DecidableEq, Repr

/-- The tables and what a call counts. -/
structure Progress where
  store : AllowlistStore
  stats : UpsertStats := {}
  removed : ℕ := 0

namespace Statement

/-- The query that counts reads a failure as no row; the others are not carried out if they
fail. The count is taken at the query and not behind the entry: only a call that goes through
returns it. -/
def apply : Statement → Bool → Progress → Progress
  | .begin, _, p | .commit, _, p | .prepare, _, p | .refuse, _, p => p
  | .count siteId plate, failed, p =>
    let existed := !failed && (p.store.allowlist.get? (siteId, plate)).isSome
    { p with stats :=
        if existed = true then { p.stats with updated := p.stats.updated + 1 }
        else { p.stats with inserted := p.stats.inserted + 1 } }
  | .upsertMain row, _, p =>
    { p with store := { p.store with allowlist := p.store.allowlist.upsert row } }
  | .delClasses siteId plate, _, p =>
    { p with store := { p.store with
        classes := p.store.classes.eraseWhere fun r => r.siteId = siteId ∧ r.plateText = plate } }
  | .insClass row, _, p =>
    { p with store := { p.store with classes := p.store.classes.insertIgnore row } }
  | .delWindows siteId plate, _, p =>
    { p with store := { p.store with
        windows := p.store.windows.filter fun r => ¬ (r.siteId = siteId ∧ r.plateText = plate) } }
  | .insWindow row, _, p =>
    { p with store := { p.store with windows := p.store.windows ++ [row] } }
  | .removePlate siteId raw, _, p =>
    let r := AllowlistStore.removePlate siteId (p.removed, p.store) raw
    { p with store := r.2, removed := r.1 }
  | .blocklistRemovePlate siteId raw, _, p =>
    let r := AllowlistStore.blocklistRemovePlate siteId (p.removed, p.store) raw
    { p with store := r.2, removed := r.1 }

/-- The texts of the exceptions, without what the database adds to them. -/
def raises : Statement → Bool → Option String
  | .refuse, _ => some "upsert: plate_text is empty after normalization"
  | .count _ _, _ | _, false => none
  | .begin, true | .commit, true => some "exec failed"
  | .prepare, true => some "prepare failed"
  | .upsertMain _, true => some "upsert main"
  | .delClasses _ _, true => some "del classes"
  | .insClass _, true => some "ins class"
  | .delWindows _ _, true => some "del windows"
  | .insWindow _, true => some "ins window"
  | .removePlate _ _, true => some "remove"
  | .blocklistRemovePlate _ _, true => some "blocklist_remove"

end Statement

def engine : Engine Statement Progress String where
  apply := Statement.apply
  raises := Statement.raises
  rollbackFailed := "exec failed"

/-- The loop body of `upsert`. -/
def entryStatements (siteId : Text) (e : Allowlistentry) : List Statement :=
  let plate := normalizePlate e.plateText
  if plate = [] then [.refuse]
  else
    [.count siteId plate, .upsertMain (e.toRow siteId plate), .delClasses siteId plate] ++
    (e.allowedClasses.map fun c => ⟨siteId,plate,c.number⟩).map .insClass ++
    .delWindows siteId plate :: (e.timeWindows.map fun w => w.toRow siteId plate).map .insWindow

inductive Mutation where
  | upsert (siteId : Text) (entries : List Allowlistentry)
  | remove (siteId : Text) (plateTexts : List Text)
  | blocklistRemove (siteId : Text) (plateTexts : List Text)
  deriving DecidableEq, Repr

namespace Mutation

def script : Mutation → Script Statement
  | .upsert siteId entries =>
    ⟨[.begin],List.replicate 6 .prepare ++ entries.flatMap (entryStatements siteId) ++ [.commit]⟩
  | .remove siteId plateTexts =>
    ⟨[.prepare, .begin],plateTexts.map (.removePlate siteId) ++ [.commit]⟩
  -- no transaction, and no handler
  | .blocklistRemove siteId plateTexts =>
    ⟨.prepare :: plateTexts.map (.blocklistRemovePlate siteId),[]⟩

/-- The exception of a call, and the tables and counts after it. -/
def call (m : Mutation) (fails : ℕ → Bool) (s : AllowlistStore) : Option String × Progress :=
  engine.call fails { store := s } m.script

end Mutation

/-! ### What the statements do -/

section Statements
variable {fails : ℕ → Bool}

theorem replay_insClass (rows : List ClassRow) (k : ℕ) (p : Progress) :
    engine.replay fails k p (rows.map .insClass) =
      { p with store := { p.store with
          classes := rows.foldl Table.insertIgnore p.store.classes } } := by
  induction rows generalizing k p with
  | nil => rfl
  | cons row rows ih => exact ih _ _

theorem replay_insWindow (rows : List WindowRow) (k : ℕ) (p : Progress) :
    engine.replay fails k p (rows.map .insWindow) =
      { p with store := { p.store with windows := p.store.windows ++ rows } } := by
  induction rows generalizing k p with
  | nil => simp [Engine.replay]
  | cons row rows ih =>
    rw [List.map_cons, Engine.replay, ih]
    simp [engine, Statement.apply]

/-- The deletions that go through are those of the store. -/
theorem replay_removePlate (siteId : Text) (raws : List Text) (k : ℕ) (p : Progress) :
    engine.replay fails k p (raws.map (.removePlate siteId)) = { p with
      store := (raws.foldl (AllowlistStore.removePlate siteId) (p.removed, p.store)).2
      removed := (raws.foldl (AllowlistStore.removePlate siteId) (p.removed, p.store)).1 } := by
  induction raws generalizing k p with
  | nil => rfl
  | cons raw raws ih => exact ih _ _

theorem replay_blocklistRemovePlate (siteId : Text) (raws : List Text) (k : ℕ) (p : Progress) :
    engine.replay fails k p (raws.map (.blocklistRemovePlate siteId)) = { p with
      store := (raws.foldl (AllowlistStore.blocklistRemovePlate siteId) (p.removed, p.store)).2
      removed := (raws.foldl (AllowlistStore.blocklistRemovePlate siteId)
        (p.removed, p.store)).1 } := by
  induction raws generalizing k p with
  | nil => rfl
  | cons raw raws ih => exact ih _ _

end Statements

/-! ### Calls in which nothing fails -/

section NoFaults

theorem firstFailure_never {ts : List Statement} (h : .refuse ∉ ts) (k : ℕ) :
    engine.firstFailure (fun _ => false) k ts = none := by
  cases hfirst : engine.firstFailure (fun _ => false) k ts with
  | none => rfl
  | some p =>
    obtain ⟨⟨t,ht,hraises⟩,_⟩ := Engine.firstFailure_eq_some_iff.mp hfirst
    cases t with
    | refuse => exact absurd (List.mem_of_getElem? ht) h
    | _ => cases hraises

/-- The statements of an entry make the entry's change. -/
theorem replay_entryStatements {e : Allowlistentry} (h : normalizePlate e.plateText ≠ [])
    (siteId : Text) (k : ℕ) (p : Progress) :
    engine.replay (fun _ => false) k p (entryStatements siteId e) = { p with
      store := p.store.upsertEntry siteId e
      stats := if (p.store.allowlist.get? (siteId, normalizePlate e.plateText)).isSome = true
        then { p.stats with updated := p.stats.updated + 1 }
        else { p.stats with inserted := p.stats.inserted + 1 } } := by
  unfold entryStatements
  dsimp only
  rw [if_neg h, Engine.replay_append, Engine.replay_append, replay_insClass, Engine.replay,
    replay_insWindow]
  rfl

theorem refuse_notMem_entryStatements {e : Allowlistentry} (h : normalizePlate e.plateText ≠ [])
    (siteId : Text) : .refuse ∉ entryStatements siteId e := by
  simp [entryStatements, h]

/-- The loop of `upsert` with its commit. -/
theorem run_entries (siteId : Text) (entries : List Allowlistentry) (k : ℕ) (p : Progress) :
    let r := engine.run (fun _ => false) k p (entries.flatMap (entryStatements siteId) ++ [.commit])
    match AllowlistStore.upsertLoop siteId p.store p.stats entries with
    | .ok (stats, s) => r.1 = none ∧ r.2.1 = { p with store := s, stats := stats }
    | .error message => r.1 = some message := by
  induction entries generalizing k p with
  | nil => exact ⟨rfl,rfl⟩
  | cons e es ih =>
    rw [List.flatMap_cons, List.append_assoc, AllowlistStore.upsertLoop]
    by_cases hplate : normalizePlate e.plateText = []
    · simp only [hplate, ↓reduceIte, entryStatements, List.singleton_append, Engine.run]
      rfl
    · have hquiet := firstFailure_never (refuse_notMem_entryStatements hplate siteId) k
      have hrest := ih (k + (entryStatements siteId e).length)
        (engine.replay (fun _ => false) k p (entryStatements siteId e))
      rw [replay_entryStatements hplate] at hrest
      rw [Engine.run_append hquiet, replay_entryStatements hplate]
      simp only [hplate, ↓reduceIte]
      exact hrest

/-- Without failures the call is the store's `upsert`. -/
theorem call_upsert (siteId : Text) (entries : List Allowlistentry) (s : AllowlistStore) :
    (Mutation.upsert siteId entries).call (fun _ => false) s =
      match s.upsert siteId entries with
      | (.ok stats, s') => (none, { store := s', stats := stats })
      | (.error message, s') => (some message, { store := s' }) := by
  have hprepare : ∀ us, engine.run (fun _ => false) 1 { store := s } (List.replicate 6 .prepare ++ us) =
      engine.run (fun _ => false) 7 { store := s } us := fun us => rfl
  have hloop := run_entries siteId entries 7 { store := s }
  unfold Mutation.call Mutation.script Engine.call
  dsimp only
  rw [show engine.run (fun _ => false) 0 { store := s } [.begin] = (none, { store := s }, 1) from rfl]
  dsimp only
  rw [List.append_assoc, hprepare]
  unfold AllowlistStore.upsert
  generalize engine.run (fun _ => false) 7 { store := s }
    (entries.flatMap (entryStatements siteId) ++ [.commit]) = r at hloop ⊢
  obtain ⟨thrown,p,k⟩ := r
  dsimp only at hloop
  cases hresult : AllowlistStore.upsertLoop siteId s {} entries with
  | ok result =>
    rw [hresult] at hloop
    obtain ⟨hthrown,hp⟩ := hloop
    cases hthrown
    rw [hp]
  | error message =>
    rw [hresult] at hloop
    cases hloop
    rfl

theorem call_remove (siteId : Text) (plateTexts : List Text) (s : AllowlistStore) :
    (Mutation.remove siteId plateTexts).call (fun _ => false) s =
      (none, { store := (s.remove siteId plateTexts).2
               removed := (s.remove siteId plateTexts).1 }) := by
  have hquiet : .refuse ∉ plateTexts.map (Statement.removePlate siteId) ++ [.commit] := by simp
  unfold Mutation.call Mutation.script Engine.call
  dsimp only
  rw [show engine.run (fun _ => false) 0 { store := s } [.prepare, .begin] =
    (none, { store := s }, 2) from rfl]
  dsimp only
  rw [Engine.run_eq, firstFailure_never hquiet, Engine.replay_append, replay_removePlate]
  rfl

theorem call_blocklistRemove (siteId : Text) (plateTexts : List Text) (s : AllowlistStore) :
    (Mutation.blocklistRemove siteId plateTexts).call (fun _ => false) s =
      (none, { store := (s.blocklistRemove siteId plateTexts).2
               removed := (s.blocklistRemove siteId plateTexts).1 }) := by
  have hquiet : .refuse ∉ Statement.prepare ::
      plateTexts.map (Statement.blocklistRemovePlate siteId) := by simp
  unfold Mutation.call Mutation.script Engine.call
  dsimp only
  rw [Engine.run_eq, firstFailure_never hquiet, Engine.replay, replay_blocklistRemovePlate]
  rfl

end NoFaults

/-! ### Calls that fail -/

/-- The tables hold the same rows. -/
structure SameRows (s t : AllowlistStore) : Prop where
  allowlist : s.allowlist.rows.Perm t.allowlist.rows
  classes : s.classes.rows.Perm t.classes.rows
  windows : s.windows.Perm t.windows
  blocklist : s.blocklist.rows.Perm t.blocklist.rows

theorem SameRows.refl (s : AllowlistStore) : SameRows s s := ⟨.refl _,.refl _,.refl _,.refl _⟩

theorem SameRows.listed {s t : AllowlistStore} (h : SameRows s t) (siteId plate : Text) :
    s.listed siteId plate = t.listed siteId plate := by
  have hmem : ∀ r, r ∈ s.blocklist.rows ↔ r ∈ t.blocklist.rows := fun r => h.blocklist.mem_iff
  unfold AllowlistStore.listed Table.get?
  apply Bool.eq_iff_iff.mpr
  simp only [List.find?_isSome, hmem]

/-- Deletions leave the rows alone exactly if none of the plates is on the blocklist. -/
theorem blocklistRemove_sameRows_iff (s : AllowlistStore) (siteId : Text) (raws : List Text) :
    SameRows (s.blocklistRemove siteId raws).2 s ↔
      ∀ raw ∈ raws, s.isBlocklisted siteId raw = false := by
  constructor
  · intro hsame raw hraw
    have hkey : ∃ raw' ∈ raws, siteId = siteId ∧ normalizePlate raw' = normalizePlate raw :=
      ⟨raw,hraw,rfl,rfl⟩
    have hgone := s.blocklistRemove_listed siteId raws siteId (normalizePlate raw)
    rw [StoreOp.blocks, if_pos hkey, Option.getD_some] at hgone
    exact (hsame.listed siteId (normalizePlate raw)).symm.trans hgone
  · intro h
    have hsame : (raws.foldl (AllowlistStore.blocklistRemovePlate siteId) (0, s)) = (0, s) := by
      induction raws with
      | nil => rfl
      | cons raw raws ih =>
        have hnone := Option.isSome_eq_false_iff.mp (h raw List.mem_cons_self)
        rw [List.foldl_cons, AllowlistStore.blocklistRemovePlate]
        rw [Option.isNone_iff_eq_none.mp hnone]
        exact ih fun raw' hraw' => h raw' (List.mem_cons_of_mem raw hraw')
    rw [AllowlistStore.blocklistRemove, hsame]
    exact SameRows.refl s

namespace Mutation

/-- The statement behind the first failure of a guarded part is the rollback, and it goes
through. -/
def RollbackRestores (fails : ℕ → Bool) (m : Mutation) : Prop :=
  ∀ i e, engine.firstFailure fails 0 m.script.statements = some (i, e) →
    m.script.opening.length ≤ i → fails (i + 1) = false

/-- In a `blocklist_remove` whose deletion of plate number `k` is the first statement to fail,
none of the plates before it is on the blocklist. Statement 0 prepares. -/
def Intact (fails : ℕ → Bool) (s : AllowlistStore) : Mutation → Prop
  | .upsert _ _ | .remove _ _ => True
  | .blocklistRemove siteId plateTexts =>
    ∀ k < plateTexts.length, (∀ j ≤ k, fails j = false) → fails (k + 1) = true →
      ∀ raw ∈ plateTexts.take k, s.isBlocklisted siteId raw = false

/-- What stands before the transaction does not touch the tables. -/
theorem opening_sameRows (fails : ℕ → Bool) (m : Mutation) (s : AllowlistStore)
    (h : m.script.guarded ≠ []) :
    SameRows (engine.replay fails 0 { store := s } m.script.opening).store s := by
  cases m with
  | upsert siteId entries => exact SameRows.refl s
  | remove siteId plateTexts => exact SameRows.refl s
  | blocklistRemove siteId plateTexts => exact absurd rfl h

/-- A call that throws leaves the rows alone exactly if its rollback goes through, or the
statements before the failure have left them alone. -/
theorem call_sameRows_iff (fails : ℕ → Bool) (m : Mutation) (s : AllowlistStore) :
    ((m.call fails s).1 ≠ none → SameRows (m.call fails s).2.store s) ↔
      ∀ i e, engine.firstFailure fails 0 m.script.statements = some (i, e) →
        (m.script.opening.length ≤ i ∧ fails (i + 1) = false) ∨
          SameRows (engine.replay fails 0 { store := s } (m.script.statements.take i)).store s :=
  engine.call_atomic_iff fails (R:=fun p q : Progress => SameRows p.store q.store) { store := s } m.script
    (m.opening_sameRows fails s)

/-- The statements before the opening's end change nothing if there is a transaction. -/
theorem take_sameRows {fails : ℕ → Bool} {m : Mutation} {i : ℕ} (s : AllowlistStore)
    (hguarded : m.script.guarded ≠ []) (hi : i < m.script.opening.length) :
    SameRows (engine.replay fails 0 { store := s } (m.script.statements.take i)).store s := by
  have htake : m.script.statements.take i = m.script.opening.take i :=
    List.take_append_of_le_length hi.le
  rw [htake]
  refine Engine.replay_invariant (I:=fun p : Progress => SameRows p.store s) ?_ 0 (SameRows.refl s)
  intro t ht failed p hp
  have hmem := List.mem_of_mem_take ht
  cases m with
  | upsert siteId entries =>
    cases List.mem_singleton.mp hmem
    exact hp
  | remove siteId plateTexts =>
    rcases List.mem_pair.mp hmem with rfl | rfl
    · exact hp
    · exact hp
  | blocklistRemove siteId plateTexts => exact absurd rfl hguarded

theorem firstFailure_blocklistRemove_iff (fails : ℕ → Bool) (siteId : Text)
    (plateTexts : List Text) (i : ℕ) :
    (∃ e, engine.firstFailure fails 0 (blocklistRemove siteId plateTexts).script.statements =
      some (i, e)) ↔ i ≤ plateTexts.length ∧ fails i = true ∧ ∀ j < i, fails j = false := by
  have hstatement : ∀ j ≤ plateTexts.length,
      ∃ t, (blocklistRemove siteId plateTexts).script.statements[j]? = some t ∧
        (engine.raises t false = none ∧ ∃ e, engine.raises t true = some e) := by
    intro j hj
    cases j with
    | zero => exact ⟨.prepare,rfl,rfl,_,rfl⟩
    | succ j =>
      refine ⟨.blocklistRemovePlate siteId plateTexts[j],?_,rfl,_,rfl⟩
      simp [script, Script.statements, Nat.lt_of_succ_le hj]
  simp only [Engine.firstFailure_eq_some_iff, Nat.zero_add]
  constructor
  · rintro ⟨e,⟨t,ht,he⟩,hbefore⟩
    have hi : i ≤ plateTexts.length := by
      have hlt := (List.getElem?_eq_some_iff.mp ht).1
      simp [script, Script.statements] at hlt
      omega
    refine ⟨hi,?_,?_⟩
    · obtain ⟨u,hu,hquiet,_⟩ := hstatement i hi
      cases ht.symm.trans hu
      cases hfails : fails i with
      | true => rfl
      | false =>
        rw [hfails, hquiet] at he
        cases he
    · intro j hj
      obtain ⟨u,hu,_,e',hloud⟩ := hstatement j (by omega)
      have hnone := hbefore j u hj hu
      cases hfails : fails j with
      | false => rfl
      | true =>
        rw [hfails, hloud] at hnone
        cases hnone
  · rintro ⟨hi,hfails,hbefore⟩
    obtain ⟨t,ht,_,e,hloud⟩ := hstatement i hi
    refine ⟨e,⟨t,ht,by rw [hfails, hloud]⟩,?_⟩
    intro j u hj hu
    obtain ⟨u',hu',hquiet,_⟩ := hstatement j (by omega)
    cases hu.symm.trans hu'
    rw [hbefore j hj, hquiet]

/-- A call that throws leaves all tables as they were exactly if it is not a `blocklist_remove`
that has already deleted a row. -/
theorem failed_call_keeps_tables_iff (fails : ℕ → Bool) (m : Mutation) (s : AllowlistStore)
    (hrollback : m.RollbackRestores fails) :
    ((m.call fails s).1 ≠ none → SameRows (m.call fails s).2.store s) ↔ m.Intact fails s := by
  have htransaction (hguarded : m.script.guarded ≠ []) :
      (m.call fails s).1 ≠ none → SameRows (m.call fails s).2.store s := by
    refine (m.call_sameRows_iff fails s).mpr ?_
    intro i e hfirst
    by_cases hi : m.script.opening.length ≤ i
    · exact Or.inl ⟨hi,hrollback i e hfirst hi⟩
    · exact Or.inr (take_sameRows s hguarded (by omega))
  cases m with
  | upsert siteId entries => exact iff_of_true (htransaction (by simp [script])) trivial
  | remove siteId plateTexts => exact iff_of_true (htransaction (by simp [script])) trivial
  | blocklistRemove siteId plateTexts =>
    rw [call_sameRows_iff]
    have hreplay : ∀ k, (engine.replay fails 0 { store := s }
        ((blocklistRemove siteId plateTexts).script.statements.take (k + 1))).store =
        (s.blocklistRemove siteId (plateTexts.take k)).2 := by
      intro k
      have htake : (blocklistRemove siteId plateTexts).script.statements.take (k + 1) =
          .prepare :: (plateTexts.take k).map (.blocklistRemovePlate siteId) := by
        simp [script, Script.statements]
      rw [htake, Engine.replay, replay_blocklistRemovePlate]
      rfl
    constructor
    · intro h k hk hbefore hfails
      obtain ⟨e,hfirst⟩ := (firstFailure_blocklistRemove_iff fails siteId plateTexts (k + 1)).mpr
        ⟨hk,hfails,fun j hj => hbefore j (Nat.le_of_lt_succ hj)⟩
      rcases h (k + 1) e hfirst with hrolled | hsame
      · -- there is nothing to roll back here
        have hlength := hrolled.1
        simp [script] at hlength
        omega
      · rw [hreplay] at hsame
        exact (blocklistRemove_sameRows_iff s siteId (plateTexts.take k)).mp hsame
    · intro h i e hfirst
      obtain ⟨hi,hfails,hbefore⟩ :=
        (firstFailure_blocklistRemove_iff fails siteId plateTexts i).mp ⟨e,hfirst⟩
      right
      cases i with
      | zero => exact SameRows.refl s
      | succ k =>
        rw [hreplay]
        refine (blocklistRemove_sameRows_iff s siteId (plateTexts.take k)).mpr ?_
        exact h k hi (fun j hj => hbefore j (Nat.lt_succ_of_le hj)) hfails

/-- The deletion of the second plate fails behind a plate that is not on the list. -/
theorem failed_call_keeps_tables_unlisted :
    let m := blocklistRemove [83] [[75, 65], [75, 66]]
    let s : AllowlistStore := (AllowlistStore.blocklistUpsert {} [83] [75, 66] [] 0).2
    (m.call (fun k => k = 2) s).1 = some "blocklist_remove" ∧
      SameRows (m.call (fun k => k = 2) s).2.store s := by
  intro m s
  have hthrown : (m.call (fun k => k = 2) s).1 = some "blocklist_remove" := by decide
  have hrollback : m.RollbackRestores fun k => k = 2 := by
    intro i e hfirst hi
    have hlt := Engine.firstFailure_lt hfirst
    exact absurd hi (Nat.not_le_of_lt hlt)
  have hintact : m.Intact (fun k => k = 2) s := by
    intro k _ _ hfails raw hraw
    have hk : k = 1 := by
      have := of_decide_eq_true hfails
      omega
    subst hk
    cases List.mem_singleton.mp hraw
    decide
  exact ⟨hthrown,(failed_call_keeps_tables_iff _ m s hrollback).mpr hintact (by rw [hthrown]; simp)⟩

/-- Two plates on the blocklist, and the deletion of the second one fails: the call throws and
the first one is off the list. `remove` rolls back in the same place. -/
theorem blocklistRemove_fails_halfway :
    let s : AllowlistStore := (AllowlistStore.blocklistUpsert
      (AllowlistStore.blocklistUpsert {} [83] [75, 65] [] 0).2 [83] [75, 66] [] 0).2
    let after := (blocklistRemove [83] [[75, 65], [75, 66]]).call (fun k => k = 2) s
    after.1 = some "blocklist_remove" ∧ s.isBlocklisted [83] [75, 65] = true ∧
      after.2.store.isBlocklisted [83] [75, 65] = false ∧ ¬ SameRows after.2.store s := by
  intro s after
  refine ⟨by decide,by decide,by decide,?_⟩
  intro hsame
  have hlength := hsame.blocklist.length_eq
  revert hlength
  decide

end Mutation

end AlprGate.Auth
