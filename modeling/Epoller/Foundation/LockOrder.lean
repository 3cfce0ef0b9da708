import Epoller.Foundation.Runs
import Epoller.Foundation.Threads

/-!
# Scoped Locks in Order

The locking of a function is a program: a mutex is held over a scope, and between
the locks there are sequences, branches and loops. Threads run such programs, one
after the other. If every scope locks a mutex of a higher rank than those around it,
no thread waits, directly or through others, for itself.

## Contents

- `LockProg`, `LockProg.ordered`: the programs, and the order of their scopes
- `LockFrame`, `threadStep`, `LockPool`: threads inside their programs
- `LockPool.Waits`, `LockPool.Moves`: who waits for whom, and who can go on
- `LockPool.Sound.step`: a thread owns the mutexes of its open scopes, in order
- `LockPool.noDeadlock_of_run`: whoever waits, waits in the end for a thread that can go on
-/

namespace Epoller.Foundation

universe u v

/-! ## Programs -/

/-- The locking of a function, with the mutexes `μ` -/
inductive LockProg (μ : Type u) where
  | skip
  /-- A mutex is locked over a scope. -/
  | within (m : μ) (body : LockProg μ)
  | seq (first second : LockProg μ)
  | either (first second : LockProg μ)
  | many (body : LockProg μ)
deriving DecidableEq

namespace LockProg

variable {μ : Type u}

/-- One after the other -/
def seqs : List (LockProg μ) → LockProg μ
  | [] => skip
  | [p] => p
  | p :: ps => seq p (seqs ps)

/-- A program that may be left out -/
def perhaps (p : LockProg μ) : LockProg μ := either p skip

/-- Each scope locks a mutex of a higher rank than the scopes around it; `base` is the least rank
that is left. -/
def ordered (rank : μ → ℕ) : ℕ → LockProg μ → Bool
  | _, skip => true
  | base, within m body => decide (base ≤ rank m) && ordered rank (rank m + 1) body
  | base, seq p q => ordered rank base p && ordered rank base q
  | base, either p q => ordered rank base p && ordered rank base q
  | base, many p => ordered rank base p

variable {rank : μ → ℕ} {base : ℕ} {p q : LockProg μ}

@[simp] theorem ordered_within {m : μ} : (within m p).ordered rank base = true ↔
    base ≤ rank m ∧ p.ordered rank (rank m + 1) = true := by
  rw [ordered, Bool.and_eq_true, decide_eq_true_eq]

@[simp] theorem ordered_seq : (seq p q).ordered rank base = true ↔
    p.ordered rank base = true ∧ q.ordered rank base = true := by
  rw [ordered, Bool.and_eq_true]

@[simp] theorem ordered_either : (either p q).ordered rank base = true ↔
    p.ordered rank base = true ∧ q.ordered rank base = true := by
  rw [ordered, Bool.and_eq_true]

@[simp] theorem ordered_perhaps :
    (perhaps p).ordered rank base = true ↔ p.ordered rank base = true :=
  ordered_either.trans (and_iff_left rfl)

@[simp] theorem ordered_seqs {ps : List (LockProg μ)} : (seqs ps).ordered rank base = true ↔
    ∀ p ∈ ps, p.ordered rank base = true := by
  induction ps with
  | nil => exact iff_of_true rfl nofun
  | cons p ps ih =>
    rw [List.forall_mem_cons, ← ih]
    cases ps with
    | nil => exact (and_iff_left rfl).symm
    | cons q ps => exact ordered_seq

end LockProg

/-! ## Threads -/

/-- What a thread has still to do: a program, or the end of a scope. -/
inductive LockFrame (μ : Type u) where
  | run (p : LockProg μ)
  | release (m : μ)
deriving DecidableEq

variable {μ : Type u} {κ : Type v}

/-- The next step of a thread. At a branch or a loop `choice` decides. -/
def threadStep (choice : Bool) : List (LockFrame μ) → Option (MutexAction μ × List (LockFrame μ))
  | [] => none
  | .release m :: fs => some (.unlock m, fs)
  | .run .skip :: fs => some (.none, fs)
  | .run (.within m body) :: fs => some (.lock m, .run body :: .release m :: fs)
  | .run (.seq p q) :: fs => some (.none, .run p :: .run q :: fs)
  | .run (.either p q) :: fs => some (.none, .run (if choice = true then p else q) :: fs)
  | .run (.many p) :: fs =>
    some (.none, if choice = true then .run p :: .run (.many p) :: fs else fs)

/-- The mutex that a thread is about to lock -/
def wanted : List (LockFrame μ) → Option μ
  | .run (.within m _) :: _ => some m
  | _ => none

/-- The mutexes of the open scopes -/
def openScopes [DecidableEq μ] (fs : List (LockFrame μ)) (m : μ) : Bool :=
  decide (.release m ∈ fs)

/-- The least rank above those of the open scopes -/
def baseRank (rank : μ → ℕ) : List (LockFrame μ) → ℕ
  | [] => 0
  | .run _ :: fs => baseRank rank fs
  | .release m :: _ => rank m + 1

/-- Every program that is left fits into the scopes around it, and these are in order. -/
def OrderedFrames (rank : μ → ℕ) : List (LockFrame μ) → Prop
  | [] => True
  | .run p :: fs => p.ordered rank (baseRank rank fs) = true ∧ OrderedFrames rank fs
  | .release m :: fs => baseRank rank fs ≤ rank m ∧ OrderedFrames rank fs

/-! ## What a Step of a Thread Does -/

variable {rank : μ → ℕ} {fs fs' : List (LockFrame μ)} {action : MutexAction μ} {choice : Bool}
  {m : μ}

/-- The open scopes are below the least rank that is left. -/
theorem rank_lt_baseRank (h : OrderedFrames rank fs) (hm : .release m ∈ fs) :
    rank m < baseRank rank fs := by
  induction fs with
  | nil => cases hm
  | cons f fs ih =>
    cases f with
    | run p =>
      rcases List.mem_cons.mp hm with heq | hm
      · cases heq
      · exact ih h.2 hm
    | release m' =>
      rcases List.mem_cons.mp hm with heq | hm
      · cases heq
        exact Nat.lt_succ_self _
      · have hlt := ih h.2 hm
        have hle : baseRank rank fs ≤ rank m' := h.1
        change rank m < rank m' + 1
        omega

/-- A mutex that is about to be locked is above all open scopes. -/
theorem rank_lt_of_wanted {m' : μ} (h : OrderedFrames rank fs) (hwanted : wanted fs = some m)
    (hm : .release m' ∈ fs) : rank m' < rank m := by
  cases fs with
  | nil => cases hm
  | cons f fs =>
    cases f with
    | release => cases hwanted
    | run p =>
      cases p with
      | within m'' body =>
        cases hwanted
        have hbelow := rank_lt_baseRank h hm
        exact hbelow.trans_le (LockProg.ordered_within.mp h.1).1
      | skip | seq | either | many => cases hwanted

/-- **Step** of a thread: the programs stay in order. -/
theorem orderedFrames_threadStep (h : OrderedFrames rank fs)
    (hstep : threadStep choice fs = some (action, fs')) : OrderedFrames rank fs' := by
  cases fs with
  | nil => cases hstep
  | cons f fs =>
    cases f with
    | release m =>
      cases hstep
      exact h.2
    | run p =>
      obtain ⟨hp, hfs⟩ := h
      cases p with
      | skip =>
        cases hstep
        exact hfs
      | within m body =>
        cases hstep
        obtain ⟨hle, hbody⟩ := LockProg.ordered_within.mp hp
        exact ⟨hbody, hle, hfs⟩
      | seq p q =>
        cases hstep
        obtain ⟨hp, hq⟩ := LockProg.ordered_seq.mp hp
        exact ⟨hp, hq, hfs⟩
      | either p q =>
        cases hstep
        obtain ⟨hp, hq⟩ := LockProg.ordered_either.mp hp
        cases choice with
        | true => exact ⟨hp, hfs⟩
        | false => exact ⟨hq, hfs⟩
      | many p =>
        cases hstep
        cases choice with
        | true => exact ⟨hp, hp, hfs⟩
        | false => exact hfs

/-- **Step** of a thread: its action opens and closes the scopes. -/
theorem openScopes_threadStep [DecidableEq μ] (h : OrderedFrames rank fs)
    (hstep : threadStep choice fs = some (action, fs')) :
    openScopes fs' = action.apply (openScopes fs) := by
  have hrun : ∀ (p : LockProg μ) (gs : List (LockFrame μ)),
      openScopes (.run p :: gs) = openScopes gs := by
    intro p gs
    funext m
    simp [openScopes]
  have hopen : ∀ (m : μ) (gs : List (LockFrame μ)),
      openScopes (.release m :: gs) = Function.update (openScopes gs) m true := by
    intro m gs
    funext m'
    by_cases hm : m' = m
    · subst hm
      simp [openScopes]
    · simp [openScopes, hm]
  cases fs with
  | nil => cases hstep
  | cons f fs =>
    cases f with
    | release m =>
      obtain ⟨rfl, rfl⟩ := Prod.mk.inj (Option.some.inj hstep)
      -- the scope that ends is open only once
      have hclosed : openScopes fs m = false := by
        rw [openScopes, decide_eq_false_iff_not]
        intro hm
        exact absurd (rank_lt_baseRank h.2 hm) (not_lt.mpr h.1)
      rw [hopen, MutexAction.apply, Function.update_idem, ← hclosed, Function.update_eq_self]
    | run p =>
      cases p with
      | within m body =>
        cases hstep
        rw [hrun, hopen, hrun, MutexAction.apply]
      | skip | seq => cases hstep; simp only [hrun, MutexAction.apply]
      | either p q => cases hstep; simp only [hrun, MutexAction.apply]
      | many p =>
        cases hstep
        cases choice <;> simp [hrun, MutexAction.apply]

/-- A thread locks the mutex that it wants. -/
theorem wanted_of_lock (hstep : threadStep choice fs = some (.lock m, fs')) :
    wanted fs = some m := by
  cases fs with
  | nil => cases hstep
  | cons f fs =>
    cases f with
    | release => cases hstep
    | run p =>
      cases p with
      | within => cases hstep; rfl
      | skip | seq | either => cases hstep
      | many => cases hstep

/-! ## Pools of Threads -/

/-- Threads, and who owns the mutexes -/
structure LockPool (μ : Type u) where
  threads : List (List (LockFrame μ))
  owner : μ → Option ℕ

/-- A step of the thread `i` -/
inductive LockStep (κ : Type v) where
  /-- A thread that has nothing to do calls a function. -/
  | call (i : ℕ) (f : κ)
  | go (i : ℕ) (choice : Bool)

namespace LockPool

variable [DecidableEq μ]

/-- So many threads with nothing to do -/
def init (μ : Type u) (n : ℕ) : LockPool μ := ⟨List.replicate n [], fun _ => none⟩

/-- `prog` is the locking of each function. -/
def step (prog : κ → LockProg μ) (s : LockPool μ) : LockStep κ → Except Unit (LockPool μ)
  | .call i f =>
    match s.threads[i]? with
    | some [] => .ok { s with threads := s.threads.set i [.run (prog f)] }
    | _ => .error ()
  | .go i choice =>
    match s.threads[i]?.bind (threadStep choice) with
    | some (action, fs) =>
      match action.run i s.owner with
      | some owner => .ok ⟨s.threads.set i fs, owner⟩
      | none => .error ()
    | none => .error ()

/-- The mutex that the thread `i` is about to lock -/
def wants (s : LockPool μ) (i : ℕ) : Option μ := s.threads[i]?.bind wanted

/-- The thread `i` is about to lock a mutex that `j` owns. -/
def Waits (s : LockPool μ) (i j : ℕ) : Prop := ∃ m, s.wants i = some m ∧ s.owner m = some j

/-- The thread `i` is inside a function and can go on, whatever it chooses. -/
def CanGo (prog : κ → LockProg μ) (s : LockPool μ) (i : ℕ) : Prop :=
  (∃ fs, s.threads[i]? = some fs ∧ fs ≠ []) ∧ ∀ choice, ∃ s', s.step prog (.go i choice) = .ok s'

variable {prog : κ → LockProg μ} {s s' : LockPool μ} {l : LockStep κ} {ls : List (LockStep κ)}
  {i j n : ℕ}

/-- **Specification of `step`** -/
inductive Moves (prog : κ → LockProg μ) (s : LockPool μ) : LockStep κ → LockPool μ → Prop where
  | call {i : ℕ} {f : κ} (hidle : s.threads[i]? = some []) :
      Moves prog s (.call i f) { s with threads := s.threads.set i [.run (prog f)] }
  | go {i : ℕ} {choice : Bool} {fs fs' : List (LockFrame μ)} {action : MutexAction μ}
      {owner : μ → Option ℕ} (hthread : s.threads[i]? = some fs)
      (hstep : threadStep choice fs = some (action, fs'))
      (hrun : action.run i s.owner = some owner) :
      Moves prog s (.go i choice) ⟨s.threads.set i fs', owner⟩

theorem moves_of_step (hstep : s.step prog l = .ok s') : Moves prog s l s' := by
  cases l with
  | call i f =>
    simp only [step] at hstep
    split at hstep <;> cases hstep
    rename_i hidle
    exact .call hidle
  | go i choice =>
    simp only [step] at hstep
    split at hstep
    · rename_i hthread
      obtain ⟨fs, hfs, hthread⟩ := Option.bind_eq_some_iff.mp hthread
      split at hstep <;> cases hstep
      rename_i hrun
      exact .go hfs hthread hrun
    · cases hstep

/-- A thread owns the mutexes of its open scopes, and these are in order. -/
structure Sound (rank : μ → ℕ) (s : LockPool μ) : Prop where
  frames : ∀ (i : ℕ) fs, s.threads[i]? = some fs → OrderedFrames rank fs
  owns : ∀ (i : ℕ) fs, s.threads[i]? = some fs →
    ∀ m, s.owner m = some i ↔ openScopes fs m = true
  /-- Only these threads own mutexes. -/
  owner : ∀ m (i : ℕ), s.owner m = some i → ∃ fs, s.threads[i]? = some fs

theorem sound_init (rank : μ → ℕ) (n : ℕ) : Sound rank (init μ n) := by
  have hidle : ∀ (i : ℕ) fs, (init μ n).threads[i]? = some fs → fs = [] := by
    intro i fs hfs
    exact List.eq_of_mem_replicate (List.mem_of_getElem? hfs)
  constructor
  case frames =>
    intro i fs hfs
    rw [hidle i fs hfs]
    trivial
  case owns =>
    intro i fs hfs m
    rw [hidle i fs hfs]
    exact iff_of_false nofun (by simp [openScopes])
  case owner => exact fun m i howner => (by cases howner)

/-- An action changes nothing for other threads, if it unlocks only what its thread owns. -/
theorem run_owner_of_ne {who : ℕ} {owner owner' : μ → Option ℕ} {action : MutexAction μ}
    (hunlock : ∀ m, action = .unlock m → owner m = some who)
    (hrun : action.run who owner = some owner') (hj : j ≠ who) (m : μ) :
    owner' m = some j ↔ owner m = some j := by
  cases action with
  | none =>
    cases hrun
    rfl
  | lock m' =>
    obtain ⟨hfree, rfl⟩ := MutexAction.run_lock_eq_some_iff.mp hrun
    by_cases hm : m = m'
    · subst hm
      simp [hfree, Ne.symm hj]
    · simp [hm]
  | unlock m' =>
    cases hrun
    by_cases hm : m = m'
    · subst hm
      simp [hunlock m rfl, Ne.symm hj]
    · simp [hm]

/-- A thread ends only a scope that is open. -/
theorem openScopes_of_unlock {fs fs' : List (LockFrame μ)} {choice : Bool} {m : μ}
    (hstep : threadStep choice fs = some (.unlock m, fs')) : openScopes fs m = true := by
  cases fs with
  | nil => cases hstep
  | cons f fs =>
    cases f with
    | release =>
      cases hstep
      simp [openScopes]
    | run p => cases p <;> cases hstep

/-- **Step** -/
theorem Sound.step {rank : μ → ℕ} (hprog : ∀ f, (prog f).ordered rank 0 = true) (h : Sound rank s)
    (hstep : s.step prog l = .ok s') : Sound rank s' := by
  cases moves_of_step hstep with
  | @call i f hidle =>
    have hget : ∀ (k : ℕ) fs, (s.threads.set i [.run (prog f)])[k]? = some fs →
        (k = i ∧ fs = [.run (prog f)]) ∨ (k ≠ i ∧ s.threads[k]? = some fs) := by
      intro k fs hfs
      rw [List.getElem?_set] at hfs
      grind
    constructor
    case frames =>
      intro k fs hfs
      rcases hget k fs hfs with ⟨-, rfl⟩ | ⟨-, hold⟩
      · exact ⟨hprog f, trivial⟩
      · exact h.frames k fs hold
    case owns =>
      intro k fs hfs m
      rcases hget k fs hfs with ⟨rfl, rfl⟩ | ⟨-, hold⟩
      · rw [h.owns _ _ hidle m]
        simp [openScopes]
      · exact h.owns k fs hold m
    case owner =>
      intro m k howner
      obtain ⟨fs, hfs⟩ := h.owner m k howner
      simp only [List.getElem?_set]
      grind
  | @go i choice fs fs' action owner hthread hmove hrun =>
    have hordered := h.frames i fs hthread
    have hother := fun k (hk : k ≠ i) => run_owner_of_ne (j := k) (fun m hm => by
      subst hm
      exact (h.owns i fs hthread m).mpr (openScopes_of_unlock hmove)) hrun hk
    constructor
    case frames =>
      intro k gs hgs
      rw [List.getElem?_set] at hgs
      split at hgs
      · split at hgs <;> cases hgs
        exact orderedFrames_threadStep hordered hmove
      · exact h.frames k gs hgs
    case owns =>
      intro k gs hgs m
      rw [List.getElem?_set] at hgs
      split at hgs
      · rename_i hk
        split at hgs <;> cases hgs
        rw [← hk, openScopes_threadStep hordered hmove]
        exact MutexAction.owner_iff (h.owns i fs hthread) hrun m
      · rename_i hk
        rw [hother k (Ne.symm hk) m]
        exact h.owns k gs hgs m
    case owner =>
      intro m k howner
      by_cases hk : k = i
      · subst hk
        have hlt := (List.getElem?_eq_some_iff.mp hthread).1
        exact ⟨fs', List.getElem?_set_self hlt⟩
      · obtain ⟨gs, hgs⟩ := h.owner m k ((hother k hk m).mp howner)
        exact ⟨gs, by rw [List.getElem?_set_ne (Ne.symm hk), hgs]⟩

/-! ## Who Waits for Whom -/

variable {rank : μ → ℕ} {m m' : μ}

omit [DecidableEq μ] in
theorem wants_eq_some_iff : s.wants i = some m ↔
    ∃ fs, s.threads[i]? = some fs ∧ wanted fs = some m := Option.bind_eq_some_iff

/-- A thread wants a mutex above the one that another waits for it to unlock. -/
theorem Sound.rank_lt (h : Sound rank s) (howner : s.owner m = some j)
    (hwants : s.wants j = some m') : rank m < rank m' := by
  obtain ⟨fs, hfs, hwanted⟩ := wants_eq_some_iff.mp hwants
  have hopen := (h.owns j fs hfs m).mp howner
  exact rank_lt_of_wanted (h.frames j fs hfs) hwanted (of_decide_eq_true hopen)

/-- Ranks grow along a chain of threads that wait. -/
theorem Sound.rank_lt_of_chain (h : Sound rank s) (hchain : Relation.TransGen s.Waits i j)
    (hi : s.wants i = some m) (hj : s.wants j = some m') : rank m < rank m' := by
  induction hchain generalizing m' with
  | single hwaits =>
    obtain ⟨m₁, hm₁, howner⟩ := hwaits
    rw [hi] at hm₁
    cases hm₁
    exact h.rank_lt howner hj
  | tail _ hwaits ih =>
    obtain ⟨m₁, hm₁, howner⟩ := hwaits
    exact (ih hm₁).trans (h.rank_lt howner hj)

/-- No thread waits for itself. -/
theorem Sound.not_chain_self (h : Sound rank s) : ¬ Relation.TransGen s.Waits i i := by
  intro hchain
  obtain ⟨j, ⟨m, hm, -⟩, -⟩ := Relation.TransGen.head'_iff.mp hchain
  exact lt_irrefl _ (h.rank_lt_of_chain hchain hm hm)

/-- A thread inside a function goes on unless it waits. -/
theorem canGo_of_not_waits (prog : κ → LockProg μ) {fs : List (LockFrame μ)}
    (hfs : s.threads[i]? = some fs) (hne : fs ≠ []) (hfree : ∀ j, ¬ s.Waits i j) :
    s.CanGo prog i := by
  refine ⟨⟨fs, hfs, hne⟩, fun choice => ?_⟩
  obtain ⟨⟨action, fs'⟩, hstep⟩ : ∃ next, threadStep choice fs = some next := by
    cases fs with
    | nil => exact absurd rfl hne
    | cons f fs =>
      cases f with
      | release => exact ⟨_, rfl⟩
      | run p => cases p <;> exact ⟨_, rfl⟩
  obtain ⟨owner, hrun⟩ : ∃ owner, action.run i s.owner = some owner := by
    cases action with
    | none | unlock => exact ⟨_, rfl⟩
    | lock m =>
      have hwants : s.wants i = some m := wants_eq_some_iff.mpr ⟨fs, hfs, wanted_of_lock hstep⟩
      refine ⟨_, MutexAction.run_lock_eq_some_iff.mpr ⟨?_, rfl⟩⟩
      exact Option.eq_none_iff_forall_ne_some.mpr fun j howner => hfree j ⟨m, hwants, howner⟩
  refine ⟨⟨s.threads.set i fs', owner⟩, ?_⟩
  simp only [step, hfs, Option.bind_some, hstep, hrun]

omit [DecidableEq μ] in
/-- The threads are finitely many, and so are the ranks that they want. -/
theorem exists_rank_bound (rank : μ → ℕ) (s : LockPool μ) :
    ∃ top, ∀ i m, s.wants i = some m → rank m ≤ top := by
  refine ⟨(Finset.range s.threads.length).sup fun i => ((s.wants i).map rank).getD 0, ?_⟩
  intro i m hwants
  obtain ⟨fs, hfs, -⟩ := wants_eq_some_iff.mp hwants
  have hmem := Finset.mem_range.mpr (List.getElem?_eq_some_iff.mp hfs).1
  have hle := Finset.le_sup (f := fun i => ((s.wants i).map rank).getD 0) hmem
  rwa [hwants] at hle

/-- **No deadlock**: whoever waits, waits in the end for a thread that can go on. -/
theorem Sound.exists_canGo (h : Sound rank s) (prog : κ → LockProg μ) (hwaits : s.Waits i j) :
    ∃ k, Relation.TransGen s.Waits i k ∧ s.CanGo prog k := by
  obtain ⟨top, htop⟩ := exists_rank_bound rank s
  obtain ⟨m, hwants, howner⟩ := hwaits
  -- along the chain less and less is left between the rank and `top`
  induction hleft : top - rank m using Nat.strong_induction_on generalizing i j m with
  | _ left ih =>
    obtain ⟨fs, hfs⟩ := h.owner m j howner
    have hopen := (h.owns j fs hfs m).mp howner
    have hne : fs ≠ [] := List.ne_nil_of_mem (of_decide_eq_true hopen)
    by_cases hfree : ∀ k, ¬ s.Waits j k
    · exact ⟨j, .single ⟨m, hwants, howner⟩, canGo_of_not_waits prog hfs hne hfree⟩
    · obtain ⟨k, m', hwants', howner'⟩ := not_forall_not.mp hfree
      have hlt := h.rank_lt howner hwants'
      have hle := htop j m' hwants'
      obtain ⟨last, hchain, hgo⟩ := ih (top - rank m') (by omega) m' hwants' howner' rfl
      exact ⟨last, .head ⟨m, hwants, howner⟩ hchain, hgo⟩

/-- **Run**: functions that lock in order never wait for each other in a circle, and whoever
waits, waits in the end for a thread that can go on. -/
theorem noDeadlock_of_run (hprog : ∀ f, (prog f).ordered rank 0 = true)
    (hrun : runFrom (step prog) (init μ n) ls = .ok s) :
    (∀ i, ¬ Relation.TransGen s.Waits i i) ∧
      ∀ i j, s.Waits i j → ∃ k, Relation.TransGen s.Waits i k ∧ s.CanGo prog k := by
  have h := runFrom_invariant (Sound rank) (fun h hstep => h.step hprog hstep)
    (sound_init rank n) hrun
  exact ⟨fun i => h.not_chain_self, fun i j hwaits => h.exists_canGo prog hwaits⟩

end LockPool

end Epoller.Foundation
