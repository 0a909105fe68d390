/-
# Transaction blocks

A session runs commands on a working copy of what is committed.  A block is opened by a command,
or implicitly by the first command of a string that has several; an error in it undoes what was
done since it was opened.  A string that ends in an implicit block commits it.

Where a string is run inside a block that somebody else opened and will close, that somebody wants
to know that all of it is still in the block at its end (`Contained`).  A commit or a rollback in
the string takes that away, unless nothing was done before it and the string opens a block of its
own.

For a string that is contained, whatever fails, nothing is committed by it, and all of it is
pending when it succeeds (`string_contained`).  For one that is not there is a run without errors
after which something is committed, or something is missing (`string_leaks`).

A string that begins a block and commits it does all of its work or nothing (`string_whole_ok`,
`string_whole_error`).
-/
import PgPaw.Lib.Loop

namespace Transaction

open Loop (each)

/-! ## 1. Sessions -/

/-- A command: one on the data, or one that begins or ends a block.  With `chain` the end of a
block begins the next. -/
inductive Command (ι : Type*)
  | work (i : ι)
  | begin
  | commit (chain : Bool)
  | rollback (chain : Bool)

inductive Block
  | idle
  | implicit
  | explicit
  /-- After an error, until the block is ended. -/
  | failed
  deriving DecidableEq

/-- Work outside a block begins one. -/
def Block.afterWork : Block → Block
  | idle => implicit
  | block => block

structure Session (α : Type*) where
  committed : α
  working : α
  block : Block

namespace Session

variable {α : Type*}

def idle (a : α) : Session α := ⟨a, a, .idle⟩

/-- A block has just been opened. -/
def opened (a : α) : Session α := ⟨a, a, .explicit⟩

/-- A block has just been ended. -/
def ended (chain : Bool) (a : α) : Session α := if chain then opened a else idle a

/-- After an error. -/
def abort (s : Session α) : Session α :=
  match s.block with
  | .explicit | .failed => { s with block := .failed }
  | .idle | .implicit => idle s.committed

end Session

/-- What runs the commands. -/
structure Engine (ι α ε : Type*) where
  run : ι → α → Except ε α
  /-- A command that is an error where it stands. -/
  refuse : Block → Command ι → Option ε
  /-- A commit checks what was deferred. -/
  atCommit : α → Except ε α
  aborted : ε

section

variable {ι α ε : Type*} (engine : Engine ι α ε)

/-- The end of a block by a commit. -/
def close (chain : Bool) (s : Session α) : Except ε Unit × Session α :=
  match s.block with
  | .idle | .failed => (.ok (), .ended chain s.committed)
  | .implicit | .explicit => match engine.atCommit s.working with
    | .ok a => (.ok (), .ended chain a)
    | .error e => (.error e, .idle s.committed)

/-- A command that is not refused. -/
def perform (c : Command ι) (s : Session α) : Except ε Unit × Session α :=
  match c with
  | .commit chain => close engine chain s
  | .rollback chain => (.ok (), .ended chain s.committed)
  | .begin =>
    if s.block = .failed then (.error engine.aborted, s)
    else (.ok (), { s with block := .explicit })
  | .work i =>
    if s.block = .failed then (.error engine.aborted, s)
    else match engine.run i s.working with
      | .ok a => (.ok (), { s with working := a, block := s.block.afterWork })
      | .error e => (.error e, s.abort)

/-- A command. -/
def step (c : Command ι) (s : Session α) : Except ε Unit × Session α :=
  match engine.refuse s.block c with
  | some e => (.error e, s.abort)
  | none => perform engine c s

/-- A string of commands. -/
def string (cs : List (Command ι)) (s : Session α) : Except ε Unit × Session α :=
  match each (step engine) cs s with
  | (.error e, s) => (.error e, s)
  | (.ok (), s) => if s.block = .implicit then close engine false s else (.ok (), s)

end

/-! ## 2. Contained strings -/

namespace Command

variable {ι : Type*}

def isWork : Command ι → Bool
  | work _ => true
  | _ => false

/-- The command ends a block. -/
def ends : Command ι → Bool
  | commit _ | rollback _ => true
  | _ => false

end Command

section Strings

variable {ι : Type*}

/-- The work of a string. -/
def works : List (Command ι) → List ι
  | [] => []
  | .work i :: cs => i :: works cs
  | _ :: cs => works cs

theorem mem_works {cs : List (Command ι)} {i : ι} : i ∈ works cs ↔ .work i ∈ cs := by
  induction cs with
  | nil => simp [works]
  | cons c cs ih => cases c <;> simp [works, ih]

/-- A block that somebody opened is open after the commands. -/
def inBlock : Bool → List (Command ι) → Bool
  | b, [] => b
  | _, .begin :: cs => inBlock true cs
  | _, .commit chain :: cs | _, .rollback chain :: cs => inBlock chain cs
  | b, .work _ :: cs => inBlock b cs

/-- **All of the string is in the block** that is open at its end: once there is work, nothing ends
a block. -/
def Contained (cs : List (Command ι)) : Prop :=
  (∀ c ∈ cs.dropWhile (fun c => !c.isWork), c.ends = false) ∧ (works cs ≠ [] → inBlock true cs)

end Strings

/-! ## 3. What a command does -/

section Steps

variable {ι α ε : Type*} {engine : Engine ι α ε} {c : Command ι} {cs : List (Command ι)} {i : ι}
  {chain : Bool} {s s' : Session α} {e : ε}

@[simp] theorem committed_abort (s : Session α) : s.abort.committed = s.committed := by
  unfold Session.abort
  split <;> rfl

@[simp] theorem committed_ended (chain : Bool) (a : α) : (Session.ended chain a).committed = a := by
  cases chain <;> rfl

@[simp] theorem working_ended (chain : Bool) (a : α) : (Session.ended chain a).working = a := by
  cases chain <;> rfl

@[simp] theorem explicit_afterWork (b : Block) : (b.afterWork == .explicit) = (b == .explicit) := by
  cases b <;> rfl

theorem block_ended (chain : Bool) (a : α) :
    (Session.ended chain a).block = if chain then .explicit else .idle := by
  cases chain <;> rfl

theorem committed_close_error (h : close engine chain s = (.error e, s')) :
    s'.committed = s.committed := by
  unfold close at h
  cases hblock : s.block <;> rw [hblock] at h
  case idle | failed => cases h
  all_goals
    cases ha : engine.atCommit s.working <;> rw [ha] at h
    · cases h
      rfl
    · cases h

/-- What a commit leaves, in a block and outside. -/
theorem close_ok (h : close engine chain s = (.ok (), s')) :
    ((s.block = .idle ∨ s.block = .failed) ∧ s' = .ended chain s.committed) ∨
      ∃ a, engine.atCommit s.working = .ok a ∧ s' = .ended chain a := by
  unfold close at h
  cases hblock : s.block <;> rw [hblock] at h
  case idle =>
    cases h
    exact .inl ⟨.inl rfl, rfl⟩
  case failed =>
    cases h
    exact .inl ⟨.inr rfl, rfl⟩
  all_goals
    cases ha : engine.atCommit s.working <;> rw [ha] at h
    · cases h
    · cases h
      exact .inr ⟨_, rfl, rfl⟩

/-- **An error commits nothing.** -/
theorem committed_step_error (h : step engine c s = (.error e, s')) :
    s'.committed = s.committed := by
  unfold step at h
  split at h
  · cases h
    exact committed_abort s
  · cases c with
    | commit chain => exact committed_close_error h
    | rollback chain => cases h
    | begin =>
      simp only [perform] at h
      split at h
      · cases h
        rfl
      · cases h
    | work i =>
      simp only [perform] at h
      split at h
      · cases h
        rfl
      · split at h
        · cases h
        · cases h
          exact committed_abort s

theorem perform_of_step (h : step engine c s = (.ok (), s')) :
    perform engine c s = (.ok (), s') := by
  unfold step at h
  split at h
  · cases h
  · exact h

theorem step_work_ok (h : step engine (.work i) s = (.ok (), s')) :
    ∃ a, engine.run i s.working = .ok a ∧
      s' = { s with working := a, block := s.block.afterWork } := by
  have hperform := perform_of_step h
  simp only [perform] at hperform
  split at hperform
  · cases hperform
  · split at hperform
    · rename_i a ha
      cases hperform
      exact ⟨a, ha, rfl⟩
    · cases hperform

theorem step_begin_ok (h : step engine .begin s = (.ok (), s')) :
    s' = { s with block := .explicit } := by
  have hperform := perform_of_step h
  simp only [perform] at hperform
  split at hperform
  · cases hperform
  · cases hperform
    rfl

theorem step_rollback_ok (h : step engine (.rollback chain) s = (.ok (), s')) :
    s' = .ended chain s.committed := by
  cases perform_of_step h
  rfl

theorem step_commit_ok (h : step engine (.commit chain) s = (.ok (), s')) :
    ((s.block = .idle ∨ s.block = .failed) ∧ s' = .ended chain s.committed) ∨
      ∃ a, engine.atCommit s.working = .ok a ∧ s' = .ended chain a :=
  close_ok (perform_of_step h)

/-- **The rule for one version of the data**: what the work and a commit preserve holds of what is
committed and of what is pending. -/
theorem step_preserves {P : α → Prop}
    (hrun : ∀ i, c = .work i → ∀ a b, P a → engine.run i a = .ok b → P b)
    (hcommit : ∀ a b, P a → engine.atCommit a = .ok b → P b)
    (h : P s.committed ∧ P s.working) :
    P (step engine c s).2.committed ∧ P (step engine c s).2.working := by
  have habort : P s.abort.committed ∧ P s.abort.working := by
    unfold Session.abort
    split
    · exact h
    · exact h
    · exact ⟨h.1, h.1⟩
    · exact ⟨h.1, h.1⟩
  have hended : ∀ chain a, P a →
      P (Session.ended chain a).committed ∧ P (Session.ended chain a).working := by
    intro chain a ha
    rw [committed_ended, working_ended]
    exact ⟨ha, ha⟩
  unfold step
  split
  · exact habort
  · cases c with
    | begin =>
      simp only [perform]
      split
      · exact h
      · exact h
    | rollback chain => exact hended chain _ h.1
    | work i =>
      simp only [perform]
      split
      · exact h
      · split
        · rename_i a ha
          exact ⟨h.1, hrun i rfl _ a h.2 ha⟩
        · exact habort
    | commit chain =>
      simp only [perform, close]
      cases s.block with
      | idle | failed => exact hended chain _ h.1
      | implicit | explicit =>
        cases ha : engine.atCommit s.working with
        | error e => exact ⟨h.1, h.1⟩
        | ok a => exact hended chain a (hcommit _ a h.2 ha)

theorem string_preserves {P : α → Prop}
    (hrun : ∀ i ∈ works cs, ∀ a b, P a → engine.run i a = .ok b → P b)
    (hcommit : ∀ a b, P a → engine.atCommit a = .ok b → P b)
    (h : P s.committed ∧ P s.working) :
    P (string engine cs s).2.committed ∧ P (string engine cs s).2.working := by
  have hloop : P (each (step engine) cs s).2.committed ∧ P (each (step engine) cs s).2.working :=
    Loop.each_preserves (P := fun s : Session α => P s.committed ∧ P s.working) h
      fun c hc t ht => step_preserves (fun i hi => hrun i (mem_works.mpr (hi ▸ hc))) hcommit ht
  unfold string
  cases hall : each (step engine) cs s with
  | mk r t =>
    rw [hall] at hloop
    cases r with
    | error e => exact hloop
    | ok u =>
      simp only
      split
      · rename_i himplicit
        simp only [close, himplicit]
        cases ha : engine.atCommit t.working with
        | error e => exact ⟨hloop.1, hloop.1⟩
        | ok a => exact ⟨hcommit _ a hloop.2 ha, hcommit _ a hloop.2 ha⟩
      · exact hloop

end Steps

/-! ## 4. A string that is contained -/

section Contained

variable {ι α ε : Type*} {engine : Engine ι α ε} {cs : List (Command ι)} {s s' : Session α}
  {Q : List ι → α → Prop}
  (hrun : ∀ done i a b, Q done a → engine.run i a = .ok b → Q (done ++ [i]) b)
  (hcommit : ∀ done a b, Q done a → engine.atCommit a = .ok b → Q done b)

include hrun in
/-- Commands that end no block: the work is added to what is pending. -/
theorem each_sealed {done : List ι} (hends : ∀ c ∈ cs, c.ends = false) (h : Q done s.working)
    (hblock : s.block ≠ .failed) :
    (each (step engine) cs s).2.committed = s.committed ∧
      ((each (step engine) cs s).1 = .ok () →
        Q (done ++ works cs) (each (step engine) cs s).2.working ∧
        (each (step engine) cs s).2.block ≠ .failed ∧
        (inBlock (s.block == .explicit) cs = true →
          (each (step engine) cs s).2.block = .explicit)) := by
  induction cs generalizing s done with
  | nil => exact ⟨rfl, fun _ => ⟨by rwa [works, List.append_nil], hblock, by simp [inBlock, each]⟩⟩
  | cons c cs ih =>
    have hrest : ∀ c ∈ cs, c.ends = false := fun c hc => hends c (List.mem_cons_of_mem _ hc)
    have hc : c.ends = false := hends c List.mem_cons_self
    cases hstep : step engine c s with
    | mk r t =>
      cases r with
      | error e =>
        rw [each, hstep]
        exact ⟨committed_step_error hstep, fun hok => by cases hok⟩
      | ok u =>
        rw [each, hstep]
        cases c with
        | commit chain => cases hc
        | rollback chain => cases hc
        | begin =>
          obtain rfl := step_begin_ok hstep
          exact ih hrest h (fun hfailed => by cases hfailed)
        | work i =>
          obtain ⟨a, ha, rfl⟩ := step_work_ok hstep
          have hnext : s.block.afterWork ≠ .failed := by
            cases hb : s.block with
            | failed => exact absurd hb hblock
            | _ => exact fun hfailed => by cases hfailed
          have hall := ih (s := { s with working := a, block := s.block.afterWork }) hrest
            (hrun done i _ a h ha) hnext
          simp only [explicit_afterWork, List.append_assoc] at hall
          exact hall

include hrun hcommit in
/-- Before there is work, nothing is lost with the end of a block. -/
theorem each_contained (hseal : ∀ c ∈ cs.dropWhile (fun c => !c.isWork), c.ends = false)
    (hcommitted : Q [] s.committed) (hworking : Q [] s.working)
    (hblock : s.block = .explicit ∨ s.block = .idle) :
    Q [] (each (step engine) cs s).2.committed ∧
      ((each (step engine) cs s).1 = .ok () →
        Q (works cs) (each (step engine) cs s).2.working ∧
        (each (step engine) cs s).2.block ≠ .failed ∧
        (inBlock (s.block == .explicit) cs = true →
          (each (step engine) cs s).2.block = .explicit) ∧
        (works cs = [] → (each (step engine) cs s).2.block = .explicit ∨
          (each (step engine) cs s).2.block = .idle)) := by
  induction cs generalizing s with
  | nil =>
    refine ⟨hcommitted, fun _ => ⟨hworking, ?_, by simp [inBlock, each], fun _ => hblock⟩⟩
    rcases hblock with h | h <;> simp [each, h]
  | cons c cs ih =>
    cases hstep : step engine c s with
    | mk r t =>
      cases hwork : c.isWork with
      | true =>
        rw [List.dropWhile_cons_of_neg (by simp [hwork])] at hseal
        have hfailed : s.block ≠ .failed := by rcases hblock with h | h <;> simp [h]
        obtain ⟨hsame, hok⟩ := each_sealed hrun hseal hworking hfailed
        refine ⟨by rw [hsame]; exact hcommitted, fun hdone => ?_⟩
        obtain ⟨hworks, hblock, hin⟩ := hok hdone
        refine ⟨hworks, hblock, hin, fun hnone => ?_⟩
        cases c with
        | work i => cases hnone
        | _ => cases hwork
      | false =>
        rw [List.dropWhile_cons_of_pos (by simp [hwork])] at hseal
        cases r with
        | error e =>
          rw [each, hstep]
          refine ⟨?_, fun hok => by cases hok⟩
          rw [committed_step_error hstep]
          exact hcommitted
        | ok u =>
          rw [each, hstep]
          have hended : ∀ chain a, t = .ended chain a → Q [] a →
              Q [] t.committed ∧ Q [] t.working ∧ (t.block = .explicit ∨ t.block = .idle) ∧
                (t.block == .explicit) = chain := by
            rintro chain a rfl ha
            cases chain
            · exact ⟨ha, ha, .inr rfl, rfl⟩
            · exact ⟨ha, ha, .inl rfl, rfl⟩
          cases c with
          | work i => cases hwork
          | begin =>
            obtain rfl := step_begin_ok hstep
            exact ih hseal hcommitted hworking (.inl rfl)
          | rollback chain =>
            obtain ⟨h1, h2, h3, h4⟩ := hended chain _ (step_rollback_ok hstep) hcommitted
            have hall := ih hseal h1 h2 h3
            rw [h4] at hall
            exact hall
          | commit chain =>
            have hcommit' : ∃ a, t = .ended chain a ∧ Q [] a := by
              rcases step_commit_ok hstep with ⟨-, ht⟩ | ⟨a, ha, ht⟩
              · exact ⟨_, ht, hcommitted⟩
              · exact ⟨a, ht, hcommit [] _ a hworking ha⟩
            obtain ⟨a, ht, ha⟩ := hcommit'
            obtain ⟨h1, h2, h3, h4⟩ := hended chain a ht ha
            have hall := ih hseal h1 h2 h3
            rw [h4] at hall
            exact hall

include hrun hcommit in
/-- **A contained string commits nothing**, and what it did is pending. -/
theorem string_contained {a : α} (hcontained : Contained cs) (h : Q [] a) :
    Q [] (string engine cs (.opened a)).2.committed ∧
      ((string engine cs (.opened a)).1 = .ok () →
        Q (works cs) (string engine cs (.opened a)).2.working ∧
        ((string engine cs (.opened a)).2.block = .explicit ∨
          works cs = [] ∧ (string engine cs (.opened a)).2.block = .idle)) := by
  obtain ⟨hseal, hopen⟩ := hcontained
  obtain ⟨hcommitted, hok⟩ := each_contained (s := .opened a) hrun hcommit hseal h h (.inl rfl)
  unfold string
  cases heach : each (step engine) cs (.opened a) with
  | mk r s =>
    rw [heach] at hcommitted hok
    cases r with
    | error e => exact ⟨hcommitted, fun hdone => by cases hdone⟩
    | ok u =>
      obtain ⟨hworks, -, hin, hnone⟩ := hok rfl
      have hblock : s.block = .explicit ∨ works cs = [] ∧ s.block = .idle := by
        by_cases hempty : works cs = []
        · exact (hnone hempty).imp_right fun hidle => ⟨hempty, hidle⟩
        · exact .inl (hin (hopen hempty))
      have hne : s.block ≠ .implicit := by
        rcases hblock with hb | ⟨-, hb⟩ <;> simp [hb]
      simp only [if_neg hne]
      exact ⟨hcommitted, fun _ => ⟨hworks, hblock⟩⟩

include hrun hcommit in
/-- A command after it is in the same block, or in one of its own if the string did nothing. -/
theorem query_contained {done : List ι} {i : ι} (hcommitted : Q [] s.committed)
    (hworking : Q done s.working) (hblock : s.block = .explicit ∨ done = [] ∧ s.block = .idle) :
    ((string engine [.work i] s).1 ≠ .ok () → Q [] (string engine [.work i] s).2.committed) ∧
    ((string engine [.work i] s).1 = .ok () →
      (∀ e s', close engine false (string engine [.work i] s).2 = (.error e, s') →
        Q [] s'.committed) ∧
      ∀ s', close engine false (string engine [.work i] s).2 = (.ok (), s') →
        Q (done ++ [i]) s'.committed) := by
  cases hstep : step engine (.work i) s with
  | mk r t =>
    cases r with
    | error e =>
      have hstring : string engine [.work i] s = (.error e, t) := by simp [string, each, hstep]
      rw [hstring]
      refine ⟨fun _ => ?_, fun hok => by cases hok⟩
      rw [committed_step_error hstep]
      exact hcommitted
    | ok u =>
      obtain ⟨a, ha, rfl⟩ := step_work_ok hstep
      have hdone := hrun done i _ a hworking ha
      rcases hblock with hexplicit | ⟨rfl, hidle⟩
      · have hstring : string engine [.work i] s =
            (.ok (), { s with working := a, block := s.block.afterWork }) := by
          simp [string, each, hstep, hexplicit, Block.afterWork]
        rw [hstring]
        refine ⟨fun hne => absurd rfl hne, fun _ => ⟨fun e s' hclose => ?_, fun s' hclose => ?_⟩⟩
        · rw [committed_close_error hclose]
          exact hcommitted
        · rcases close_ok hclose with ⟨hb, -⟩ | ⟨b, hb, rfl⟩
          · simp [hexplicit, Block.afterWork] at hb
          · rw [committed_ended]
            exact hcommit _ a b hdone hb
      · have hstring : string engine [.work i] s =
            close engine false { s with working := a, block := s.block.afterWork } := by
          simp [string, each, hstep, hidle, Block.afterWork]
        rw [hstring]
        cases hclose : close engine false { s with working := a, block := s.block.afterWork } with
        | mk r t =>
          cases r with
          | error e =>
            refine ⟨fun _ => ?_, fun hok => by cases hok⟩
            rw [committed_close_error hclose]
            exact hcommitted
          | ok u =>
            rcases close_ok hclose with ⟨hb, -⟩ | ⟨b, hb, rfl⟩
            · simp [hidle, Block.afterWork] at hb
            · have hfinal := hcommit _ a b hdone hb
              refine ⟨fun hne => absurd rfl hne, fun _ => ⟨fun e s' hagain => ?_,
                fun s' hagain => ?_⟩⟩
              · cases hagain
              · cases hagain
                exact hfinal

end Contained

/-! ## 5. A string that is not -/

section Lists

variable {ι : Type*} {cs ds : List (Command ι)} {c : Command ι} {b : Bool}

theorem works_append : works (cs ++ ds) = works cs ++ works ds := by
  induction cs with
  | nil => rfl
  | cons c cs ih => cases c <;> simp [works, ih]

theorem inBlock_append : inBlock b (cs ++ ds) = inBlock (inBlock b cs) ds := by
  induction cs generalizing b with
  | nil => rfl
  | cons c cs ih => cases c <;> exact ih

theorem works_eq_nil : works cs = [] ↔ cs.dropWhile (fun c => !c.isWork) = [] := by
  induction cs with
  | nil => simp [works]
  | cons c cs ih => cases c <;> simp [works, Command.isWork, List.dropWhile, ih]

/-- A block ends after there is work. -/
def Lost (cs : List (Command ι)) : Prop := ∃ c ∈ cs.dropWhile (fun c => !c.isWork), c.ends = true

theorem lost_snoc : Lost (cs ++ [c]) ↔ Lost cs ∨ works cs ≠ [] ∧ c.ends = true := by
  unfold Lost
  rw [List.dropWhile_append, Ne, works_eq_nil]
  cases hdrop : cs.dropWhile (fun c => !c.isWork) with
  | nil => cases c <;> simp [Command.isWork, Command.ends, List.dropWhile]
  | cons d ds => simp [or_assoc]

theorem not_contained : ¬ Contained cs ↔ Lost cs ∨ works cs ≠ [] ∧ inBlock true cs = false := by
  unfold Contained Lost
  rw [not_and_or]
  simp

theorem Lost.works_ne_nil (h : Lost cs) : works cs ≠ [] := by
  obtain ⟨c, hc, -⟩ := h
  rw [Ne, works_eq_nil]
  exact List.ne_nil_of_mem hc

end Lists

section Leaks

variable {ι α ε : Type*} {engine : Engine ι α ε} {cs : List (Command ι)} {s s' : Session α}
  {size : α → Nat}

/-- Something is committed already; or nothing is, and what is pending is all of the work unless a
block was ended. -/
structure Tracked (size : α → Nat) (done : List (Command ι)) (s : Session α) : Prop where
  alive : s.block ≠ .failed
  idle : s.block = .idle → size s.working = size s.committed
  explicit : s.block = .explicit ↔ inBlock true done = true
  account : size s.committed ≠ 0 ∧ size s.working ≠ 0 ∨
    size s.committed = 0 ∧ (Lost done → size s.working < (works done).length) ∧
      (¬ Lost done → size s.working = (works done).length)

variable (hrefuse : ∀ b c, engine.refuse b c = none)
  (hrun : ∀ i ∈ works cs, ∀ a, ∃ b, engine.run i a = .ok b ∧ size b = size a + 1)
  (hcommit : ∀ a, ∃ b, engine.atCommit a = .ok b ∧ size b = size a)

include hcommit in
/-- A commit that does not fail. -/
theorem close_lenient (chain : Bool) (halive : s.block ≠ .failed)
    (hidle : s.block = .idle → size s.working = size s.committed) :
    ∃ a, close engine chain s = (.ok (), .ended chain a) ∧ size a = size s.working := by
  obtain ⟨a, ha, hsize⟩ := hcommit s.working
  unfold close
  cases hblock : s.block with
  | idle => exact ⟨_, rfl, (hidle hblock).symm⟩
  | failed => exact absurd hblock halive
  | implicit => exact ⟨a, by rw [ha], hsize⟩
  | explicit => exact ⟨a, by rw [ha], hsize⟩

theorem works_snoc_ends {done : List (Command ι)} {c : Command ι} (hc : c.isWork = false) :
    works (done ++ [c]) = works done := by
  rw [works_append]
  cases c with
  | work i => cases hc
  | _ => exact List.append_nil _

/-- The end of a block: all that was pending is committed, or gone. -/
theorem tracked_ended {done : List (Command ι)} {c : Command ι} {chain : Bool} {a : α}
    (hc : c.ends = true) (hin : ∀ b, inBlock b [c] = chain) :
    Tracked size (done ++ [c]) (.ended chain a) := by
  have hworks : works (done ++ [c]) = works done := by
    refine works_snoc_ends ?_
    cases c with
    | work i => cases hc
    | _ => rfl
  refine ⟨?_, fun _ => by simp, ?_, ?_⟩
  · cases chain <;> simp [block_ended]
  · rw [inBlock_append, hin, block_ended]
    cases chain <;> simp
  · rw [committed_ended, working_ended, lost_snoc, hworks]
    rcases Nat.eq_zero_or_pos (size a) with hzero | hpos
    · refine .inr ⟨hzero, ?_, ?_⟩
      · intro hlost
        have hne : works done ≠ [] := hlost.elim Lost.works_ne_nil And.left
        rw [hzero]
        exact List.length_pos_of_ne_nil hne
      · intro hnot
        have hnil : works done = [] := by
          by_contra hne
          exact hnot (.inr ⟨hne, hc⟩)
        rw [hzero, hnil]
        rfl
    · exact .inl ⟨Nat.ne_of_gt hpos, Nat.ne_of_gt hpos⟩

theorem tracked_begin {done : List (Command ι)} (h : Tracked size done s) :
    Tracked size (done ++ [.begin]) { s with block := .explicit } := by
  refine ⟨fun hb => (by cases hb), fun hb => (by cases hb), ?_, ?_⟩
  · rw [inBlock_append]
    exact iff_of_true rfl rfl
  · have hlost : Lost (done ++ [.begin]) ↔ Lost done := by
      rw [lost_snoc]
      simp [Command.ends]
    rw [hlost, works_snoc_ends rfl]
    exact h.account

theorem tracked_work {done : List (Command ι)} {i : ι} {a : α} (h : Tracked size done s)
    (ha : size a = size s.working + 1) :
    Tracked size (done ++ [.work i]) { s with working := a, block := s.block.afterWork } := by
  refine ⟨?_, fun hb => ?_, ?_, ?_⟩
  · cases hb : s.block with
    | failed => exact absurd hb h.alive
    | _ => exact fun hfailed => by cases hfailed
  · cases hblock : s.block <;> simp [hblock, Block.afterWork] at hb
  · have hin : inBlock true (done ++ [.work i]) = inBlock true done := by
      rw [inBlock_append, inBlock, inBlock]
    rw [hin, ← h.explicit, ← beq_iff_eq, explicit_afterWork, beq_iff_eq]
  · have hlost : Lost (done ++ [.work i]) ↔ Lost done := by
      rw [lost_snoc]
      simp [Command.ends]
    have hworks : (works (done ++ [.work i])).length = (works done).length + 1 := by
      rw [works_append, List.length_append]
      rfl
    rw [hlost, hworks, ha]
    rcases h.account with ⟨hne, -⟩ | ⟨hzero, hless, hall⟩
    · exact .inl ⟨hne, Nat.succ_ne_zero _⟩
    · refine .inr ⟨hzero, fun hl => ?_, fun hl => ?_⟩
      · have := hless hl
        omega
      · rw [hall hl]

include hrefuse hcommit in
theorem tracked_step {done : List (Command ι)} {c : Command ι} (h : Tracked size done s)
    (hwork : ∀ i, c = .work i → ∀ a, ∃ b, engine.run i a = .ok b ∧ size b = size a + 1) :
    ∃ t, step engine c s = (.ok (), t) ∧ Tracked size (done ++ [c]) t := by
  have hstep : step engine c s = perform engine c s := by rw [step, hrefuse]
  rw [hstep]
  cases c with
  | commit chain =>
    obtain ⟨a, hclose, -⟩ := close_lenient hcommit chain h.alive h.idle
    exact ⟨_, hclose, tracked_ended rfl fun _ => rfl⟩
  | rollback chain => exact ⟨_, rfl, tracked_ended rfl fun _ => rfl⟩
  | begin => exact ⟨_, by simp [perform, h.alive], tracked_begin h⟩
  | work i =>
    obtain ⟨a, ha, hsize⟩ := hwork i rfl s.working
    exact ⟨_, by simp [perform, h.alive, ha], tracked_work h hsize⟩

include hrefuse hrun hcommit in
/-- **A string that is not contained leaks**: without any error, something is committed by it, or
some of its work is no longer pending. -/
theorem string_leaks {a : α} (ha : size a = 0) (h : ¬ Contained cs) :
    ∃ s, string engine cs (.opened a) = (.ok (), s) ∧ s.block ≠ .failed ∧
      (s.block = .idle → size s.working = size s.committed) ∧
      (size s.committed ≠ 0 ∨ size s.working < (works cs).length) := by
  obtain ⟨s, hs, htracked⟩ : ∃ s, each (step engine) cs (.opened a) = (.ok (), s) ∧
      Tracked size cs s := by
    refine Loop.each_succeeds (P := Tracked size) ?_ fun done c rest t hsplit ht => ?_
    · refine ⟨fun hb => (by cases hb), fun hb => (by cases hb), iff_of_true rfl rfl,
        .inr ⟨ha, fun hlost => ?_, fun _ => ha⟩⟩
      exact absurd rfl hlost.works_ne_nil
    · refine tracked_step hrefuse hcommit ht fun i hi => hrun i (mem_works.mpr ?_)
      rw [hsplit, hi]
      exact List.mem_append_right _ List.mem_cons_self
  unfold string
  rw [hs]
  by_cases himplicit : s.block = .implicit
  · obtain ⟨b, hclose, hb⟩ := close_lenient hcommit false htracked.alive htracked.idle
    simp only [if_pos himplicit]
    refine ⟨_, hclose, by simp [block_ended], fun _ => by simp, ?_⟩
    rw [committed_ended, working_ended, hb]
    rcases htracked.account with ⟨-, hne⟩ | ⟨-, hless, hall⟩
    · exact .inl hne
    · by_cases hlost : Lost cs
      · exact .inr (hless hlost)
      · left
        rcases not_contained.mp h with hl | ⟨hne, -⟩
        · exact absurd hl hlost
        · rw [hall hlost]
          exact Nat.ne_of_gt (List.length_pos_of_ne_nil hne)
  · simp only [if_neg himplicit]
    refine ⟨s, rfl, htracked.alive, htracked.idle, ?_⟩
    rcases htracked.account with ⟨hne, -⟩ | ⟨hzero, hless, hall⟩
    · exact .inl hne
    · by_cases hlost : Lost cs
      · exact .inr (hless hlost)
      · rcases not_contained.mp h with hl | ⟨hne, hout⟩
        · exact absurd hl hlost
        · have hidle : s.block = .idle := by
            cases hblock : s.block with
            | idle => rfl
            | implicit => exact absurd hblock himplicit
            | failed => exact absurd hblock htracked.alive
            | explicit =>
              rw [htracked.explicit.mp hblock] at hout
              cases hout
          have hlength := hall hlost
          rw [htracked.idle hidle, hzero] at hlength
          have hpos := List.length_pos_of_ne_nil hne
          omega

end Leaks

section Query

variable {ι α ε : Type*} {engine : Engine ι α ε} {s : Session α} {i : ι} {a b : α} {e : ε}
  (hrefuse : ∀ b c, engine.refuse b c = none) (halive : s.block ≠ .failed)

include hrefuse halive

/-- A command after a string, and the commit, when neither fails. -/
theorem query_done (hrun : engine.run i s.working = .ok a) (hcommit : engine.atCommit a = .ok b) :
    ∃ t, string engine [.work i] s = (.ok (), t) ∧ close engine false t = (.ok (), .idle b) := by
  have hstep : step engine (.work i) s =
      (.ok (), { s with working := a, block := s.block.afterWork }) := by
    simp [step, hrefuse, perform, halive, hrun]
  unfold string
  simp only [each, hstep]
  cases hblock : s.block with
  | failed => exact absurd hblock halive
  | explicit =>
    refine ⟨_, rfl, ?_⟩
    simp [Block.afterWork, close, hcommit, Session.ended]
  | idle | implicit =>
    refine ⟨.idle b, ?_, rfl⟩
    simp [Block.afterWork, close, hcommit, Session.ended]

/-- A command that fails. -/
theorem query_failed (hrun : engine.run i s.working = .error e) :
    ∃ t, string engine [.work i] s = (.error e, t) ∧ t.committed = s.committed := by
  have hstep : step engine (.work i) s = (.error e, s.abort) := by
    simp [step, hrefuse, perform, halive, hrun]
  refine ⟨s.abort, ?_, committed_abort s⟩
  simp [string, each, hstep]

end Query

/-! ## 6. A string that is a block of its own -/

section Whole

variable {ι α ε : Type*} {engine : Engine ι α ε} {s : Session α} {cs : List (Command ι)}
  {is : List ι} {a b c : α} {e : ε}

/-- The work of a string, begun and committed by it. -/
def whole (is : List ι) : List (Command ι) := .begin :: (is.map .work ++ [.commit false])

variable (hrefuse : ∀ b c, engine.refuse b c = none)

include hrefuse

theorem each_work_ok (hblock : s.block = .explicit)
    (h : is.foldlM (fun a i => engine.run i a) s.working = .ok b) :
    each (step engine) (is.map .work ++ cs) s = each (step engine) cs { s with working := b } := by
  induction is generalizing s with
  | nil =>
    cases h
    rfl
  | cons i is ih =>
    rw [List.foldlM_cons] at h
    cases hrun : engine.run i s.working with
    | error e =>
      rw [hrun] at h
      cases h
    | ok a =>
      rw [hrun] at h
      have hstep : step engine (.work i) s = (.ok (), { s with working := a }) := by
        simp [step, hrefuse, perform, hblock, hrun, Block.afterWork]
      have hrest := ih (s := { s with working := a }) hblock h
      rw [List.map_cons, List.cons_append, each, hstep]
      exact hrest

theorem each_work_error (hblock : s.block = .explicit)
    (h : is.foldlM (fun a i => engine.run i a) s.working = .error e) :
    ∃ t, each (step engine) (is.map .work ++ cs) s = (.error e, t) ∧
      t.committed = s.committed := by
  induction is generalizing s with
  | nil => cases h
  | cons i is ih =>
    rw [List.foldlM_cons] at h
    rw [List.map_cons, List.cons_append, each]
    cases hrun : engine.run i s.working with
    | error e' =>
      rw [hrun] at h
      cases h
      have hstep : step engine (.work i) s = (.error e, s.abort) := by
        simp [step, hrefuse, perform, hblock, hrun]
      exact ⟨s.abort, by rw [hstep], committed_abort s⟩
    | ok a =>
      rw [hrun] at h
      have hstep : step engine (.work i) s = (.ok (), { s with working := a }) := by
        simp [step, hrefuse, perform, hblock, hrun, Block.afterWork]
      rw [hstep]
      exact ih (s := { s with working := a }) hblock h

/-- **All of the block is committed** when nothing in it fails. -/
theorem string_whole_ok (h : is.foldlM (fun a i => engine.run i a) a = .ok b)
    (hcommit : engine.atCommit b = .ok c) :
    string engine (whole is) (.idle a) = (.ok (), .idle c) := by
  have hbegin : step engine .begin (.idle a) = (.ok (), .opened a) := by
    simp [step, hrefuse, perform, Session.idle, Session.opened]
  have hwork : each (step engine) (is.map .work ++ [.commit false]) (.opened a) = _ :=
    each_work_ok hrefuse rfl h
  have hend : step engine (.commit false) { Session.opened a with working := b } =
      (.ok (), .idle c) := by
    simp [step, hrefuse, perform, close, Session.opened, hcommit, Session.ended]
  have heach : each (step engine) (whole is) (.idle a) = (.ok (), .idle c) := by
    rw [whole, each, hbegin]
    simp only [hwork, each, hend]
  unfold string
  rw [heach]
  rfl

/-- **And nothing of it** when something does. -/
theorem string_whole_error (h : is.foldlM (fun a i => engine.run i a) a = .error e) :
    ∃ t, string engine (whole is) (.idle a) = (.error e, t) ∧ t.committed = a := by
  have hbegin : step engine .begin (.idle a) = (.ok (), .opened a) := by
    simp [step, hrefuse, perform, Session.idle, Session.opened]
  obtain ⟨t, ht, hcommitted⟩ : ∃ t, each (step engine) (is.map .work ++ [.commit false])
      (.opened a) = (.error e, t) ∧ t.committed = a := each_work_error hrefuse rfl h
  have heach : each (step engine) (whole is) (.idle a) = (.error e, t) := by
    rw [whole, each, hbegin]
    exact ht
  refine ⟨t, ?_, hcommitted⟩
  unfold string
  rw [heach]

end Whole

end Transaction
