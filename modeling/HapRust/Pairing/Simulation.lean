import HapRust.Pairing.Atomic

/-! The file store simulates the machine whose operations take effect at once. An
edit takes effect when the temporary file is renamed, a load when it opens the
store file. -/

namespace HapRust.Pairing
open Lib Crypto
variable {β : Type} {S : Serde β} {fs fs' : Files FileName β} {store store' : Store}

/-! ## Files others have open -/

structure Undisturbed (fs fs' : Files FileName β) : Prop where
  next : fs.next ≤ fs'.next
  contents : ∀ i < fs.next, fs.names .tmp ≠ some i → fs'.contents i = fs.contents i
  tmp : ∀ i < fs.next, fs.names .tmp ≠ some i → fs'.names .tmp ≠ some i

def Pinned (fs : Files FileName β) (inode : Option Nat) : Prop :=
  ∀ i, inode = some i → i < fs.next ∧ fs.names .tmp ≠ some i

theorem pinned_store (fs : Files FileName β) : Pinned fs (fs.names .store) := by
  intro i hi
  refine ⟨fs.bound hi, fun htmp => ?_⟩
  cases fs.distinct hi htmp

theorem Undisturbed.refl (fs : Files FileName β) : Undisturbed fs fs :=
  ⟨Nat.le_refl _, fun _ _ _ => rfl, fun _ _ h => h⟩

theorem undisturbed_create (fs : Files FileName β) : Undisturbed fs (fs.create .tmp).1 where
  next := Files.next_le_create
  contents _ hi htmp := Files.create_contents_of_ne hi htmp
  tmp i hi htmp h := by
    rw [Files.create_names_self, Option.some.injEq] at h
    exact Files.create_ne hi htmp h

theorem undisturbed_write {i : Nat} (h : fs.names .tmp = some i) (bytes : List β) :
    Undisturbed fs (fs.write i bytes) where
  next := Nat.le_refl _
  contents j _ htmp := by
    refine Files.contents_setContents_of_ne ?_
    rintro rfl
    exact htmp h
  tmp _ _ htmp := htmp

theorem undisturbed_move (fs : Files FileName β) : Undisturbed fs (fs.move .tmp .store) where
  next := Nat.le_refl _
  contents _ _ _ := rfl
  tmp i _ _ h := by
    rw [Files.move_names_from (by decide)] at h
    cases h

theorem Pinned.undisturbed {inode : Option Nat} (h : Pinned fs inode) (hfs : Undisturbed fs fs') :
    Pinned fs' inode := by
  intro i hi
  obtain ⟨hlt, htmp⟩ := h i hi
  exact ⟨Nat.lt_of_lt_of_le hlt hfs.next, hfs.tmp i hlt htmp⟩

theorem Pinned.readAnswer {inode : Option Nat} (h : Pinned fs inode) (hfs : Undisturbed fs fs') :
    readAnswer fs' inode = readAnswer fs inode := by
  cases inode with
  | none => rfl
  | some i =>
    obtain ⟨hlt, htmp⟩ := h i rfl
    simp only [Pairing.readAnswer, hfs.contents i hlt htmp]

/-! ## The file and the store -/

/-- The store file is a whole document that stands for this store; or there is none,
and the store is empty. -/
def Holds (S : Serde β) (fs : Files FileName β) (store : Store) : Prop :=
  ∃ d, parseDoc S (readAnswer fs (fs.names .store)) = .ok d ∧ d.Represents store

theorem holds_document {i : Nat} {d : Document} (hname : fs.names .store = some i)
    (hd : S.fromSlice (fs.contents i) = .ok d) (hrep : d.Represents store) : Holds S fs store := by
  refine ⟨d, ?_, hrep⟩
  rw [hname, readAnswer, parseDoc, hd]
  simp only [mapErr_ok, ok_bind, hrep.version, if_true, pure_eq_ok]

theorem Holds.undisturbed (h : Holds S fs store) (hfs : Undisturbed fs fs')
    (hname : fs'.names .store = fs.names .store) : Holds S fs' store := by
  obtain ⟨d, hd, hrep⟩ := h
  refine ⟨d, ?_, hrep⟩
  rw [hname, (pinned_store fs).readAnswer hfs, hd]

theorem Holds.loaded (h : Holds S fs store) {op : Op} (hop : op.edit = none) :
    loadStage S op (readAnswer fs (fs.names .store)) = .ret (.ok (store.value op)) := by
  obtain ⟨d, hd, hrep⟩ := h
  rw [loadStage, hd, ok_bind]
  cases op with
  | loadController => rw [Op.loaded, hrep.controller]; rfl
  | loadPairings => rw [Op.loaded, hrep.accessories]; rfl
  | _ => cases hop

def Encodes (S : Serde β) (store : Store) (op : Op) (bytes : List β) : Prop :=
  (∃ edit, op.edit = some edit) ∧ ∃ d, S.fromSlice bytes = .ok d ∧ d.Represents (store.after op)

theorem performs_rename {i : Nat} (h : fs.names .tmp = some i) (op : Op) :
    Task.performs fs ⟨op, renameStage, .submitted⟩ =
      some (fs.move .tmp .store, ⟨op, renameStage, .answered (.ok .unit)⟩) := by
  change (FsCall.perform fs .rename).map _ = _
  rw [FsCall.perform, Files.rename_eq h]
  rfl

theorem holds_move {op : Op} {bytes : List β} (h : Encodes S store op bytes) {i : Nat}
    (htmp : fs.names .tmp = some i) (hi : fs.contents i = bytes) :
    Holds S (fs.move .tmp .store) (store.after op) := by
  obtain ⟨-, d, hd, hrep⟩ := h
  rw [← hi] at hd
  exact holds_document (by rw [Files.move_names_to, htmp]) hd hrep

/-! ## Where a task is -/

inductive Phase (S : Serde β) (fs : Files FileName β) : Task β → Option Outcome → Prop where
  | start (op : Op) : Phase S fs (.start S op) none
  | loading {op : Op} {inode : Option Nat} {outcome : Outcome} (hop : op.edit = none)
      (hpin : Pinned fs inode) (hload : loadStage S op (readAnswer fs inode) = .ret outcome) :
      Phase S fs ⟨op, .ask .read (loadStage S op), .opened inode⟩ (some outcome)
  | settled {op : Op} {q : FsCall β} {next : FsAnswer β → Program β} {answer : FsAnswer β}
      {outcome : Outcome} (hnext : next answer = .ret outcome) :
      Phase S fs ⟨op, .ask q next, .answered answer⟩ (some outcome)
  | returning (op : Op) (outcome : Outcome) : Phase S fs ⟨op, .ret outcome, .submitted⟩ (some outcome)

inductive Inside (S : Serde β) (fs : Files FileName β) (store : Store) : Task β → Prop where
  | locked {op : Op} {edit : Document → Option Document} (hop : op.edit = some edit)
      (answer : FsAnswer β) :
      Inside S fs store ⟨op, .ask .lock fun _ => readStage S edit, .answered answer⟩
  | reading {op : Op} {edit : Document → Option Document} (hop : op.edit = some edit) :
      Inside S fs store ⟨op, readStage S edit, .submitted⟩
  | opened {op : Op} {edit : Document → Option Document} (hop : op.edit = some edit) :
      Inside S fs store ⟨op, readStage S edit, .opened (fs.names .store)⟩
  | read {op : Op} {edit : Document → Option Document} (hop : op.edit = some edit) :
      Inside S fs store ⟨op, readStage S edit, .answered (readAnswer fs (fs.names .store))⟩
  | creating {op : Op} {bytes : List β} (henc : Encodes S store op bytes) :
      Inside S fs store ⟨op, createStage bytes, .submitted⟩
  | created {op : Op} {bytes : List β} (henc : Encodes S store op bytes) {i : Nat}
      (htmp : fs.names .tmp = some i) (hi : fs.contents i = []) :
      Inside S fs store ⟨op, createStage bytes, .answered (.ok ⟨some i, []⟩)⟩
  | writing {op : Op} {bytes : List β} (henc : Encodes S store op bytes) {i : Nat}
      (htmp : fs.names .tmp = some i) (hi : fs.contents i = []) :
      Inside S fs store ⟨op, writeStage i bytes, .submitted⟩
  | written {op : Op} {bytes : List β} (henc : Encodes S store op bytes) {i : Nat}
      (htmp : fs.names .tmp = some i) (hi : fs.contents i = bytes) :
      Inside S fs store ⟨op, writeStage i bytes, .answered (.ok .unit)⟩
  | syncing {op : Op} {bytes : List β} (henc : Encodes S store op bytes) {i : Nat}
      (htmp : fs.names .tmp = some i) (hi : fs.contents i = bytes) :
      Inside S fs store ⟨op, syncStage, .submitted⟩
  | synced {op : Op} {bytes : List β} (henc : Encodes S store op bytes) {i : Nat}
      (htmp : fs.names .tmp = some i) (hi : fs.contents i = bytes) :
      Inside S fs store ⟨op, syncStage, .answered (.ok .unit)⟩
  | ready {op : Op} {bytes : List β} (henc : Encodes S store op bytes) {i : Nat}
      (htmp : fs.names .tmp = some i) (hi : fs.contents i = bytes) :
      Inside S fs store ⟨op, renameStage, .submitted⟩

theorem Phase.undisturbed {task : Task β} {outcome : Option Outcome} (h : Phase S fs task outcome)
    (hfs : Undisturbed fs fs') : Phase S fs' task outcome := by
  cases h with
  | start op => exact .start op
  | loading hop hpin hload =>
    exact .loading hop (hpin.undisturbed hfs) (by rw [hpin.readAnswer hfs]; exact hload)
  | settled hnext => exact .settled hnext
  | returning op outcome => exact .returning op outcome

def Matches (S : Serde β) (fs : Files FileName β) (store : Store) (holds : Prop) :
    Option (Task β) → Option (Op × Option Outcome) → Prop
  | none, none => True
  | some task, some (op, outcome) =>
    op = task.op ∧ (Phase S fs task outcome ∨ (holds ∧ outcome = none ∧ Inside S fs store task))
  | _, _ => False

theorem Matches.mono {holds holds' : Prop} {x : Option (Task β)} {y : Option (Op × Option Outcome)}
    (h : Matches S fs store holds x y) (hfs : Undisturbed fs fs')
    (hin : holds → fs' = fs ∧ store' = store ∧ holds') : Matches S fs' store' holds' x y := by
  match x, y, h with
  | none, none, _ => trivial
  | some task, some (op, outcome), ⟨hop, h⟩ =>
    refine ⟨hop, ?_⟩
    rcases h with hphase | ⟨hh, hout, hinside⟩
    · exact .inl (hphase.undisturbed hfs)
    · obtain ⟨rfl, rfl, hholds⟩ := hin hh
      exact .inr ⟨hholds, hout, hinside⟩

inductive Orphaned (S : Serde β) (fs : Files FileName β) (store : Store) :
    List (FsCall β) → Option Op → Prop where
  | none : Orphaned S fs store [] none
  | create : Orphaned S fs store [.create] none
  | write {i : Nat} (htmp : fs.names .tmp = some i) (bytes : List β) :
      Orphaned S fs store [.write i bytes] none
  | rename {op : Op} {bytes : List β} (henc : Encodes S store op bytes) {i : Nat}
      (htmp : fs.names .tmp = some i) (hi : fs.contents i = bytes) :
      Orphaned S fs store [.rename] (some op)

structure Sim (S : Serde β) (s : StoreState β) (a : Atomic) : Prop where
  file : Holds S s.fs a.store
  tasks : ∀ t, Matches S s.fs a.store (s.holder = some t) (s.tasks t) (a.tasks t)
  orphans : Orphaned S s.fs a.store s.orphans a.orphan
  free : s.holder ≠ none → s.orphans = []

/-! ## Steps -/

def Follows (S : Serde β) (s : StoreState β) (a : Atomic) (shown : Option StoreEvent) : Prop :=
  ∃ actions a', steps Atomic.step a actions = some a' ∧
    trace AtomicAction.view actions = shown.toList ∧ Sim S s a'

section Steps
variable {s s' : StoreState β} {a a' : Atomic} {t : Nat}

theorem Follows.stay (h : Sim S s a) : Follows S s a none := ⟨[], a, rfl, rfl, h⟩

theorem Follows.one {j : AtomicAction} (hj : a.step j = some a') (h : Sim S s a') :
    Follows S s a j.view := by
  refine ⟨[j], a', ?_, ?_, h⟩
  · rw [steps, List.foldlM_cons, hj]
    rfl
  · rw [trace]
    cases hview : j.view with
    | none => rw [List.filterMap_cons_none hview]; rfl
    | some e => rw [List.filterMap_cons_some hview]; rfl

theorem Sim.task (h : Sim S s a) {task : Task β} (ht : s.tasks t = some task) :
    ∃ outcome, a.tasks t = some (task.op, outcome) ∧
      (Phase S s.fs task outcome ∨
        (s.holder = some t ∧ outcome = none ∧ Inside S s.fs a.store task)) := by
  have hm := h.tasks t
  rw [ht] at hm
  match hat : a.tasks t, hm with
  | some (op, outcome), hm =>
    obtain ⟨rfl, hm⟩ := hm
    exact ⟨outcome, rfl, hm⟩

theorem Sim.no_task (h : Sim S s a) (ht : s.tasks t = none) : a.tasks t = none := by
  have hm := h.tasks t
  rw [ht] at hm
  match hat : a.tasks t, hm with
  | none, _ => rfl

theorem Sim.settled_of_held (h : Sim S s a) (hh : s.holder = some t) :
    s.orphans = [] ∧ a.orphan = none := by
  have hnone : s.orphans = [] := h.free (by rw [hh]; exact Option.some_ne_none t)
  have horphans := h.orphans
  rw [hnone] at horphans
  refine ⟨hnone, ?_⟩
  generalize a.orphan = o at horphans
  cases horphans
  rfl

theorem matches_setTask {x : Option (Task β)} {y : Option (Op × Option Outcome)}
    (hxy : Matches S fs' store' (s.holder = some t) x y)
    (hrest : ∀ t', t' ≠ t → Matches S fs' store' (s.holder = some t') (s.tasks t') (a.tasks t'))
    (t' : Nat) : Matches S fs' store' (s.holder = some t') ((s.setTask t x).tasks t')
      ((a.setTask t y).tasks t') := by
  by_cases ht : t' = t
  · subst ht
    simp only [StoreState.setTask, Atomic.setTask, Function.update_self]
    exact hxy
  · simp only [StoreState.setTask, Atomic.setTask, Function.update_of_ne ht]
    exact hrest t' ht

theorem Sim.setTask (h : Sim S s a) {x : Option (Task β)} {y : Option (Op × Option Outcome)}
    (hxy : Matches S s.fs a.store (s.holder = some t) x y) :
    Sim S (s.setTask t x) (a.setTask t y) where
  file := h.file
  tasks := matches_setTask hxy fun t' _ => h.tasks t'
  orphans := h.orphans
  free := h.free

theorem Sim.setHolder (h : Sim S s a) (hh : s.holder = some t) (hfs : Undisturbed s.fs fs')
    (hfile : Holds S fs' store') {x : Task β} {y : Op × Option Outcome}
    (hxy : Matches S fs' store' (s.holder = some t) (some x) (some y)) :
    Sim S { s.setTask t (some x) with fs := fs' } { a.setTask t (some y) with store := store' } where
  file := hfile
  tasks := by
    refine matches_setTask hxy fun t' ht => (h.tasks t').mono hfs fun ht' => ?_
    exact absurd (Option.some.inj (ht'.symm.trans hh)) ht
  orphans := by
    obtain ⟨hnone, hnone'⟩ := h.settled_of_held hh
    simp only [StoreState.setTask, Atomic.setTask, hnone, hnone']
    exact .none
  free := h.free

theorem setTask_self {y : Option (Op × Option Outcome)} (h : a.tasks t = y) : a.setTask t y = a := by
  subst h
  rw [Atomic.setTask, Function.update_eq_self]

theorem Sim.moveTask (h : Sim S s a) {x : Task β} {y : Op × Option Outcome}
    (hat : a.tasks t = some y)
    (hxy : Matches S s.fs a.store (s.holder = some t) (some x) (some y)) :
    Sim S (s.setTask t (some x)) a := by
  have hsim := h.setTask hxy
  rwa [setTask_self hat] at hsim

theorem Sim.moveHolder (h : Sim S s a) (hh : s.holder = some t) (hfs : Undisturbed s.fs fs')
    (hname : fs'.names .store = s.fs.names .store) {x : Task β} (hat : a.tasks t = some (x.op, none))
    (hx : Inside S fs' a.store x) : Sim S { s.setTask t (some x) with fs := fs' } a := by
  have hsim := h.setHolder hh hfs (h.file.undisturbed hfs hname)
    (y := (x.op, none)) ⟨rfl, .inr ⟨hh, rfl, hx⟩⟩
  rwa [setTask_self hat] at hsim

theorem step_effect {op : Op} (hat : a.tasks t = some (op, none))
    (h : op.edit.isNone ∨ a.orphan = none) : a.step (.effect t) = some
      { a.setTask t (some (op, some (.ok (a.store.value op)))) with store := a.store.after op } := by
  simp only [Atomic.step, hat, if_pos h]

theorem step_fault {op : Op} {outcome : Option Outcome} (hat : a.tasks t = some (op, outcome))
    (h : op.edit.isNone ∨ outcome = none) (text : String) : a.step (.fault t text) = some
      (a.setTask t (some (op, some (.error (.store text))))) := by
  simp only [Atomic.step, hat, if_pos h]

theorem simulate_call (h : Sim S s a) {op : Op} (hstep : s.step S (.call t op) = some s') :
    Follows S s' a (StoreAction.call t op).view := by
  obtain ⟨hnone, rfl⟩ := guarded_eq_some.mp hstep
  have ha : a.tasks t = none := h.no_task (Option.isNone_iff_eq_none.mp hnone)
  exact Follows.one (j := .call t op) (if_pos ha) (h.setTask ⟨rfl, .inl (.start op)⟩)

theorem simulate_lock (h : Sim S s a) (hquiet : s.orphans = [])
    (hstep : s.step S (.lock t) = some s') : Follows S s' a (StoreAction.lock t).view := by
  obtain ⟨hfree, hstep⟩ := Option.ite_none_right_eq_some.mp hstep
  obtain ⟨task', hlock, rfl⟩ := Option.map_eq_some_iff.mp hstep
  obtain ⟨task, ht, hlock⟩ := Option.bind_eq_some_iff.mp hlock
  obtain ⟨outcome, hat, hphase | ⟨hholder, -, -⟩⟩ := h.task ht
  · cases hphase with
    | start op =>
      cases hop : op.edit with
      | none =>
        rw [Task.start, run_of_load hop] at hlock
        cases hlock
      | some edit =>
        rw [Task.start, run_of_edit hop] at hlock
        obtain rfl := Option.some.inj hlock
        refine Follows.stay ⟨h.file, fun t' => ?_, h.orphans, fun _ => hquiet⟩
        by_cases ht' : t' = t
        · subst ht'
          simp only [StoreState.setTask, Function.update_self, hat]
          exact ⟨rfl, .inr ⟨trivial, rfl, .locked hop _⟩⟩
        · simp only [StoreState.setTask, Function.update_of_ne ht']
          refine (h.tasks t').mono (.refl _) fun hholder => ?_
          rw [hfree] at hholder
          cases hholder
    | loading _ _ _ => cases hlock
    | @settled op q next answer outcome hnext => cases q <;> cases hlock
    | returning op outcome => cases hlock
  · rw [hfree] at hholder
    cases hholder

theorem simulate_opens (h : Sim S s a) (hstep : s.step S (.opens t) = some s') :
    Follows S s' a (StoreAction.opens t).view := by
  obtain ⟨task', hopens, rfl⟩ := Option.map_eq_some_iff.mp hstep
  obtain ⟨task, ht, hopens⟩ := Option.bind_eq_some_iff.mp hopens
  obtain ⟨outcome, hat, hphase | ⟨hholder, rfl, hinside⟩⟩ := h.task ht
  · cases hphase with
    | start op =>
      cases hop : op.edit with
      | some edit =>
        rw [Task.start, run_of_edit hop] at hopens
        cases hopens
      | none =>
        -- a load takes effect here
        rw [Task.start, run_of_load hop] at hopens
        obtain rfl := Option.some.inj hopens
        have hat : a.tasks t = some (op, none) := hat
        have heffect := step_effect hat (.inl (Option.isNone_iff_eq_none.mpr hop))
        rw [after_of_load hop] at heffect
        exact Follows.one (j := .effect t) heffect
          (h.setTask ⟨rfl, .inl (.loading hop (pinned_store _) (h.file.loaded hop))⟩)
    | loading _ _ _ => cases hopens
    | @settled op q next answer outcome hnext => cases q <;> cases hopens
    | returning op outcome => cases hopens
  · cases hinside with
    | reading hop =>
      obtain rfl := Option.some.inj hopens
      exact Follows.stay (h.moveTask hat ⟨rfl, .inr ⟨hholder, rfl, .opened hop⟩⟩)
    | _ => cases hopens

theorem simulate_performs (h : Sim S s a) (hstep : s.step S (.performs t) = some s') :
    Follows S s' a (StoreAction.performs t).view := by
  obtain ⟨⟨fs', task'⟩, hperforms, rfl⟩ := Option.map_eq_some_iff.mp hstep
  obtain ⟨task, ht, hperforms⟩ := Option.bind_eq_some_iff.mp hperforms
  obtain ⟨outcome, hat, hphase | ⟨hholder, rfl, hinside⟩⟩ := h.task ht
  · cases hphase with
    | start op =>
      cases hop : op.edit with
      | none =>
        rw [Task.start, run_of_load hop] at hperforms
        cases hperforms
      | some edit =>
        rw [Task.start, run_of_edit hop] at hperforms
        cases hperforms
    | loading hop hpin hload =>
      obtain ⟨rfl, rfl⟩ := Prod.mk.inj (Option.some.inj hperforms)
      exact Follows.stay (h.moveTask hat ⟨rfl, .inl (.settled hload)⟩)
    | @settled op q next answer outcome hnext => cases q <;> cases hperforms
    | returning op outcome => cases hperforms
  · cases hinside with
    | opened hop =>
      obtain ⟨rfl, rfl⟩ := Prod.mk.inj (Option.some.inj hperforms)
      exact Follows.stay (h.moveTask hat ⟨rfl, .inr ⟨hholder, rfl, .read hop⟩⟩)
    | creating henc =>
      obtain ⟨rfl, rfl⟩ := Prod.mk.inj (Option.some.inj hperforms)
      exact Follows.stay (h.moveHolder hholder (undisturbed_create _)
        (Files.create_names_of_ne (by decide)) hat
        (.created henc Files.create_names_self Files.create_contents_self))
    | writing henc htmp hi =>
      obtain ⟨rfl, rfl⟩ := Prod.mk.inj (Option.some.inj hperforms)
      exact Follows.stay (h.moveHolder hholder (undisturbed_write htmp _) rfl hat
        (.written henc htmp (Files.contents_write hi)))
    | syncing henc htmp hi =>
      obtain ⟨rfl, rfl⟩ := Prod.mk.inj (Option.some.inj hperforms)
      exact Follows.stay (h.moveTask hat ⟨rfl, .inr ⟨hholder, rfl, .synced henc htmp hi⟩⟩)
    | @ready op bytes henc i htmp hi =>
      -- an edit takes effect here
      rw [performs_rename htmp] at hperforms
      obtain ⟨rfl, rfl⟩ := Prod.mk.inj (Option.some.inj hperforms)
      have hat : a.tasks t = some (op, none) := hat
      have heffect := step_effect hat (.inr (h.settled_of_held hholder).2)
      refine Follows.one (j := .effect t) heffect
        (h.setHolder hholder (undisturbed_move _) (holds_move henc htmp hi) ⟨rfl, .inl ?_⟩)
      obtain ⟨⟨edit, hop⟩, -⟩ := henc
      rw [value_of_edit hop]
      exact .settled rfl
    | _ => cases hperforms

theorem simulate_fails (h : Sim S s a) {text : String} (hstep : s.step S (.fails t text) = some s') :
    Follows S s' a (StoreAction.fails t text).view := by
  obtain ⟨task', hfails, rfl⟩ := Option.map_eq_some_iff.mp hstep
  obtain ⟨task, ht, hfails⟩ := Option.bind_eq_some_iff.mp hfails
  obtain ⟨outcome, hat, hphase⟩ := h.task ht
  have hsettled : (task.op.edit.isNone ∨ outcome = none) ∧ task'.op = task.op ∧
      Phase S s.fs task' (some (.error (.store text))) := by
    rcases hphase with hphase | ⟨-, rfl, hinside⟩
    · cases hphase with
      | start op =>
        cases hop : op.edit with
        | none =>
          rw [Task.start, run_of_load hop] at hfails
          obtain rfl := Option.some.inj hfails
          exact ⟨.inr rfl, rfl, .settled rfl⟩
        | some edit =>
          rw [Task.start, run_of_edit hop] at hfails
          cases hfails
      | loading hop hpin hload =>
        obtain rfl := Option.some.inj hfails
        exact ⟨.inl (Option.isNone_iff_eq_none.mpr hop), rfl, .settled rfl⟩
      | @settled op q next answer outcome hnext => cases hfails
      | returning op outcome => cases hfails
    · refine ⟨.inr rfl, ?_⟩
      cases hinside with
      | reading hop | opened hop | creating henc | syncing henc htmp hi | ready henc htmp hi =>
        obtain rfl := Option.some.inj hfails
        exact ⟨rfl, .settled rfl⟩
      | _ => cases hfails
  obtain ⟨hmay, hop, hphase'⟩ := hsettled
  rw [← hop] at hat hmay
  exact Follows.one (j := .fault t text) (step_fault hat hmay text) (h.setTask ⟨rfl, .inl hphase'⟩)

theorem simulate_read (hS : S.RoundTrips) (h : Sim S s a) (hh : s.holder = some t) {op : Op}
    {edit : Document → Option Document} (hop : op.edit = some edit) (hat : a.tasks t = some (op, none))
    {d : Document} (hd : d.Represents a.store) :
    Follows S (s.setTask t (some ⟨op, editStage S edit d, .submitted⟩)) a none := by
  unfold editStage
  cases hedit : edit d with
  | some d' =>
    obtain ⟨bytes, hbytes, hslice⟩ := hS { d' with version := some 2 }
    have henc : Encodes S a.store op bytes :=
      ⟨⟨edit, hop⟩, _, hslice, (hd.edit_some hop hedit).upgrade⟩
    simp only [encodeStage, hbytes]
    exact Follows.stay (h.moveTask hat ⟨rfl, .inr ⟨hh, rfl, .creating henc⟩⟩)
  | none =>
    have heffect := step_effect hat (.inr (h.settled_of_held hh).2)
    rw [hd.edit_none hop hedit, value_of_edit hop] at heffect
    exact Follows.one (j := .effect t) heffect (h.setTask ⟨rfl, .inl (.returning op _)⟩)

theorem simulate_resume (hS : S.RoundTrips) (h : Sim S s a)
    (hstep : s.step S (.resume t) = some s') : Follows S s' a (StoreAction.resume t).view := by
  obtain ⟨task', hresume, rfl⟩ := Option.map_eq_some_iff.mp hstep
  obtain ⟨task, ht, hresume⟩ := Option.bind_eq_some_iff.mp hresume
  obtain ⟨outcome, hat, hphase | ⟨hholder, rfl, hinside⟩⟩ := h.task ht
  · cases hphase with
    | start op =>
      cases hop : op.edit with
      | none =>
        rw [Task.start, run_of_load hop] at hresume
        cases hresume
      | some edit =>
        rw [Task.start, run_of_edit hop] at hresume
        cases hresume
    | loading _ _ _ => cases hresume
    | @settled op q next answer outcome hnext =>
      obtain rfl := Option.some.inj hresume
      rw [hnext]
      exact Follows.stay (h.moveTask hat ⟨rfl, .inl (.returning op outcome)⟩)
    | returning op outcome => cases hresume
  · cases hinside with
    | locked hop answer =>
      obtain rfl := Option.some.inj hresume
      exact Follows.stay (h.moveTask hat ⟨rfl, .inr ⟨hholder, rfl, .reading hop⟩⟩)
    | read hop =>
      obtain rfl := Option.some.inj hresume
      obtain ⟨d, hd, hrep⟩ := h.file
      simp only [hd]
      exact simulate_read hS h hholder hop hat hrep
    | created henc htmp hi =>
      obtain rfl := Option.some.inj hresume
      exact Follows.stay (h.moveTask hat ⟨rfl, .inr ⟨hholder, rfl, .writing henc htmp hi⟩⟩)
    | written henc htmp hi =>
      obtain rfl := Option.some.inj hresume
      exact Follows.stay (h.moveTask hat ⟨rfl, .inr ⟨hholder, rfl, .syncing henc htmp hi⟩⟩)
    | synced henc htmp hi =>
      obtain rfl := Option.some.inj hresume
      exact Follows.stay (h.moveTask hat ⟨rfl, .inr ⟨hholder, rfl, .ready henc htmp hi⟩⟩)
    | _ => cases hresume

theorem Sim.leave (h : Sim S s a) {calls : List (FsCall β)} {o : Option Op}
    (horphans : Orphaned S s.fs a.store (s.orphans ++ calls) o)
    (hfree : s.holder = some t ∨ calls = []) :
    Sim S { s.leave t with orphans := s.orphans ++ calls } { a.setTask t none with orphan := o } where
  file := h.file
  tasks t' := by
    by_cases ht : t' = t
    · subst ht
      simp only [StoreState.leave, StoreState.setTask, Atomic.setTask, Function.update_self]
      trivial
    · simp only [StoreState.leave, StoreState.setTask, Atomic.setTask, Function.update_of_ne ht]
      refine (h.tasks t').mono (.refl _) fun hholder => ⟨rfl, rfl, ?_⟩
      rw [hholder, if_neg (fun heq => ht (Option.some.inj heq))]
  orphans := horphans
  free hne := by
    simp only [StoreState.leave, ne_eq, ite_eq_left_iff, Classical.not_imp] at hne
    rw [h.free hne.2, hfree.resolve_left hne.1]
    rfl

theorem simulate_finish (h : Sim S s a) {outcome : Outcome}
    (hstep : s.step S (.finish t outcome) = some s') :
    Follows S s' a (StoreAction.finish t outcome).view := by
  obtain ⟨hfinish, rfl⟩ := guarded_eq_some.mp hstep
  obtain ⟨task, ht, hfinish⟩ := Option.bind_eq_some_iff.mp hfinish
  obtain ⟨result, hat, hphase | ⟨hholder, rfl, hinside⟩⟩ := h.task ht
  · cases hphase with
    | start op =>
      cases hop : op.edit with
      | none =>
        rw [Task.start, run_of_load hop] at hfinish
        cases hfinish
      | some edit =>
        rw [Task.start, run_of_edit hop] at hfinish
        cases hfinish
    | loading _ _ _ => cases hfinish
    | settled hnext => cases hfinish
    | returning op result =>
      obtain rfl := Option.some.inj hfinish
      have horphans : Orphaned S s.fs a.store (s.orphans ++ []) a.orphan := by
        rw [List.append_nil]
        exact h.orphans
      have hsim := h.leave (t := t) horphans (.inr rfl)
      rw [List.append_nil] at hsim
      have hreturn : a.step (.finish t result) = some (a.setTask t none) := by
        simp only [Atomic.step, hat, if_true]
      exact Follows.one hreturn hsim
  · cases hinside <;> cases hfinish

theorem step_drop {y : Op × Option Outcome} (hat : a.tasks t = some y) :
    a.step (.drop t false) = some (a.setTask t none) := by
  simp only [Atomic.step, hat]

theorem simulate_drop (h : Sim S s a) (hstep : s.step S (.drop t) = some s') :
    Follows S s' a (StoreAction.drop t).view := by
  obtain ⟨task, ht, rfl⟩ := Option.map_eq_some_iff.mp hstep
  obtain ⟨outcome, hat, hphase⟩ := h.task ht
  have hnothing : task.orphan = [] →
      Follows S { s.leave t with orphans := s.orphans ++ task.orphan } a
        (StoreAction.drop t).view := by
    intro hnone
    rw [hnone]
    exact Follows.one (j := .drop t false) (step_drop hat)
      (h.leave (by rw [List.append_nil]; exact h.orphans) (.inr rfl))
  rcases hphase with hphase | ⟨hholder, rfl, hinside⟩
  · apply hnothing
    cases hphase with
    | start op =>
      cases hop : op.edit with
      | none => rw [Task.start, run_of_load hop]; rfl
      | some edit => rw [Task.start, run_of_edit hop]; rfl
    | loading _ _ _ => rfl
    | @settled op q next answer outcome hnext => cases q <;> rfl
    | returning op outcome => rfl
  · obtain ⟨hnone, hnone'⟩ := h.settled_of_held hholder
    cases hinside with
    | creating henc =>
      refine Follows.one (j := .drop t false) (step_drop hat) (h.leave ?_ (.inl hholder))
      rw [hnone, hnone']
      exact .create
    | writing henc htmp hi =>
      refine Follows.one (j := .drop t false) (step_drop hat) (h.leave ?_ (.inl hholder))
      rw [hnone, hnone']
      exact .write htmp _
    | @ready op bytes henc i htmp hi =>
      -- the rename may still be carried out
      have hdrop : a.step (.drop t true) = some { a.setTask t none with orphan := some op } := by
        simp only [Atomic.step, hat, hnone', if_true]
      refine Follows.one hdrop (h.leave ?_ (.inl hholder))
      rw [hnone]
      exact .rename henc htmp hi
    | _ => exact hnothing rfl

theorem Sim.settle (h : Sim S s a) (hfree : s.holder = none) (hfs : Undisturbed s.fs fs')
    (hfile : Holds S fs' store') :
    Sim S { s with fs := fs', orphans := [] } { a with store := store', orphan := none } where
  file := hfile
  tasks t' := (h.tasks t').mono hfs fun hholder => by
    rw [hfree] at hholder
    cases hholder
  orphans := .none
  free _ := rfl

theorem Sim.orphaned (h : Sim S s a) {k : Nat} {q : FsCall β} (hk : s.orphans[k]? = some q) :
    s.holder = none ∧ s.orphans.eraseIdx k = [] ∧
      ((a.orphan = none ∧ (q = .create ∨ ∃ i bytes, q = .write i bytes ∧ s.fs.names .tmp = some i)) ∨
        ∃ op i, q = .rename ∧ a.orphan = some op ∧ s.fs.names .tmp = some i ∧
          Encodes S a.store op (s.fs.contents i)) := by
  have hholder : s.holder = none := by
    by_contra hne
    rw [h.free hne] at hk
    cases hk
  refine ⟨hholder, ?_⟩
  have horphans := h.orphans
  generalize s.orphans = calls at hk horphans
  generalize a.orphan = o at horphans
  have hsingle : ∀ c : FsCall β, [c][k]? = some q → k = 0 ∧ c = q := by
    intro c hc
    cases k with
    | zero => exact ⟨rfl, Option.some.inj hc⟩
    | succ k => cases hc
  cases horphans with
  | none => cases hk
  | create =>
    obtain ⟨rfl, rfl⟩ := hsingle _ hk
    exact ⟨rfl, .inl ⟨rfl, .inl rfl⟩⟩
  | write htmp bytes =>
    obtain ⟨rfl, rfl⟩ := hsingle _ hk
    exact ⟨rfl, .inl ⟨rfl, .inr ⟨_, _, rfl, htmp⟩⟩⟩
  | rename henc htmp hi =>
    obtain ⟨rfl, rfl⟩ := hsingle _ hk
    exact ⟨rfl, .inr ⟨_, _, rfl, rfl, htmp, by rw [hi]; exact henc⟩⟩

theorem simulate_settles (h : Sim S s a) {k : Nat} (hstep : s.step S (.settles k) = some s') :
    Follows S s' a (StoreAction.settles k).view := by
  obtain ⟨⟨fs', answer⟩, hperform, rfl⟩ := Option.map_eq_some_iff.mp hstep
  obtain ⟨q, hk, hperform⟩ := Option.bind_eq_some_iff.mp hperform
  obtain ⟨hfree, herase, ⟨hnone, hq⟩ | ⟨op, i, rfl, hop, htmp, henc⟩⟩ := h.orphaned hk
  · have hquiet : Undisturbed s.fs fs' ∧ fs'.names .store = s.fs.names .store := by
      rcases hq with rfl | ⟨i, bytes, rfl, htmp⟩
      · obtain ⟨rfl, -⟩ := Prod.mk.inj (Option.some.inj hperform)
        exact ⟨undisturbed_create _, Files.create_names_of_ne (by decide)⟩
      · obtain ⟨rfl, -⟩ := Prod.mk.inj (Option.some.inj hperform)
        exact ⟨undisturbed_write htmp bytes, rfl⟩
    have hsim := h.settle hfree hquiet.1 (h.file.undisturbed hquiet.1 hquiet.2)
    simp only [herase]
    rw [← hnone] at hsim
    exact Follows.stay hsim
  · rw [FsCall.perform, Files.rename_eq htmp] at hperform
    obtain ⟨rfl, -⟩ := Prod.mk.inj (Option.some.inj hperform)
    simp only [herase]
    have hsettle : a.step .settle = some { a with store := a.store.after op, orphan := none } := by
      simp only [Atomic.step, hop, Option.map_some]
    exact Follows.one hsettle (h.settle hfree (undisturbed_move _) (holds_move henc htmp rfl))

theorem simulate_lapses (h : Sim S s a) {k : Nat} (hstep : s.step S (.lapses k) = some s') :
    Follows S s' a (StoreAction.lapses k).view := by
  obtain ⟨q, hk, rfl⟩ := Option.map_eq_some_iff.mp hstep
  obtain ⟨hfree, herase, hq⟩ := h.orphaned hk
  have hsim := h.settle hfree (.refl _) h.file
  simp only [herase]
  rcases hq with ⟨hnone, -⟩ | ⟨op, -, -, hop, -⟩
  · rw [← hnone] at hsim
    exact Follows.stay hsim
  · have hlapse : a.step .lapse = some { a with orphan := none } := by
      simp only [Atomic.step, hop, Option.map_some]
    exact Follows.one hlapse hsim

end Steps
end HapRust.Pairing
