import Mathlib.Logic.Function.Basic
import RoxyGlance.Lib.Run

/-!
# Data under a lock

Threads call operations on the same data.  An operation takes an exclusive lock, works on the data in
steps, and lets go of the lock.  In between it may run code of others, and that code may call an
operation again; the lock is not recursive.

* `Rules.always`: what the sections keep, as long as they have the lock to themselves, holds in every
  order of steps, and at most one thread is in a section;
* `stuck_iff`: nobody gets on exactly if a section is called into from within itself;
* `Blocked.always`: and then nobody ever does.

The effect of the operations is that of a sequence of calls, one at a time, when the log of the calls
and their results *explains* the data: `Explains`.
-/

namespace Guarded

variable {τ σ κ ℓ χ ρ : Type*}

/-! ### Systems -/

/-- The operations: `κ` are the calls, `ℓ` is where a section is, and `χ` is what is up to others. -/
structure Operations (σ κ ℓ χ : Type*) where
  /-- Where a section begins. -/
  enter : κ → ℓ
  /-- A step of a section; `none` if there is none. -/
  move : χ → σ → ℓ → Option (σ × ℓ)
  /-- The section is over, and the lock is let go of. -/
  finished : ℓ → Bool
  /-- Code of others is running. -/
  yields : ℓ → Bool

/-- A thread: the call that waits for the lock, and the sections it is in, the last one first. -/
structure Thread (κ ℓ : Type*) where
  waiting : Option κ := none
  sections : List ℓ := []

/-- The data, the thread that has the lock, and the threads. -/
structure System (τ σ κ ℓ : Type*) where
  data : σ
  holder : Option τ := none
  threads : τ → Thread κ ℓ := fun _ => {}

/-- A step of a thread. -/
inductive Event (τ κ χ : Type*)
  | call (t : τ) (k : κ)
  | acquire (t : τ)
  | move (t : τ) (c : χ)
  | release (t : τ)

/-- A new call, rather than a step of one that has been made. -/
def Event.isCall : Event τ κ χ → Bool
  | .call _ _ => true
  | _ => false

namespace System

/-- The thread is in a section. -/
def Inside (s : System τ σ κ ℓ) (t : τ) : Prop := (s.threads t).sections ≠ []

/-- The thread has called and not returned. -/
def Busy (s : System τ σ κ ℓ) (t : τ) : Prop := (s.threads t).waiting ≠ none ∨ s.Inside t

/-- The thread has called again from within a section. -/
def Blocked (s : System τ σ κ ℓ) (t : τ) : Prop := (s.threads t).waiting ≠ none ∧ s.Inside t

end System

/-- The lock is held by the one thread that is in a section, and it is in no other one. -/
structure Legal (free : σ → Prop) (held : σ → ℓ → Prop) (s : System τ σ κ ℓ) : Prop where
  holder : ∀ t, s.Inside t ↔ s.holder = some t
  single : ∀ t, (s.threads t).sections.length ≤ 1
  free : s.holder = none → free s.data
  held : ∀ t l, (s.threads t).sections = [l] → held s.data l

namespace Legal

variable {free : σ → Prop} {held : σ → ℓ → Prop} {s : System τ σ κ ℓ}

theorem start {d : σ} (h : free d) : Legal free held ({ data := d } : System τ σ κ ℓ) where
  holder _ := iff_of_false (fun hin => hin rfl) (by rintro ⟨⟩)
  single _ := Nat.zero_le _
  free _ := h
  held _ _ hl := by cases hl

/-- **Mutual exclusion**. -/
theorem unique (h : Legal free held s) {t u : τ} (ht : s.Inside t) (hu : s.Inside u) : t = u :=
  Option.some_inj.1 (((h.holder t).1 ht).symm.trans ((h.holder u).1 hu))

theorem sections_eq (h : Legal free held s) {t : τ} {k : Option κ} {l : ℓ} {ls : List ℓ}
    (ht : s.threads t = ⟨k, l :: ls⟩) : ls = [] := by
  have hlen := h.single t
  rw [ht] at hlen
  cases ls with
  | nil => rfl
  | cons l' ls => simp at hlen

/-- While one thread is in a section, the others are in none. -/
theorem sections_of_ne (h : Legal free held s) {t u : τ} (ht : s.Inside t) (hne : u ≠ t) :
    (s.threads u).sections = [] := by
  by_contra hu
  exact hne (h.unique hu ht)

/-- A free lock means that nobody is in a section. -/
theorem sections_of_free (h : Legal free held s) (hfree : s.holder = none) (t : τ) :
    (s.threads t).sections = [] := by
  by_contra ht
  have hholder := (h.holder t).1 ht
  rw [hfree] at hholder
  cases hholder

end Legal

/-! ### Steps -/

variable [DecidableEq τ]

namespace System

/-- One of the threads goes on to another state. -/
def put (s : System τ σ κ ℓ) (t : τ) (th : Thread κ ℓ) : System τ σ κ ℓ :=
  { s with threads := Function.update s.threads t th }

/-- The system after a step, if the step is possible. -/
def next (ops : Operations σ κ ℓ χ) (s : System τ σ κ ℓ) : Event τ κ χ → Option (System τ σ κ ℓ)
  | .call t k =>
    match s.threads t with
    | ⟨none, []⟩ => some (s.put t ⟨some k, []⟩)
    | ⟨none, l :: ls⟩ => if ops.yields l then some (s.put t ⟨some k, l :: ls⟩) else none
    | _ => none
  | .acquire t =>
    match s.holder, s.threads t with
    | none, ⟨some k, ls⟩ => some { s.put t ⟨none, ops.enter k :: ls⟩ with holder := some t }
    | _, _ => none
  | .move t c =>
    match s.threads t with
    | ⟨none, l :: ls⟩ =>
      (ops.move c s.data l).map fun r => { s.put t ⟨none, r.2 :: ls⟩ with data := r.1 }
    | _ => none
  | .release t =>
    match s.threads t with
    | ⟨none, l :: ls⟩ => if ops.finished l then some { s.put t ⟨none, ls⟩ with holder := none } else none
    | _ => none

/-- One step; what is not possible does not happen. -/
def step (ops : Operations σ κ ℓ χ) (s : System τ σ κ ℓ) (e : Event τ κ χ) : System τ σ κ ℓ :=
  (s.next ops e).getD s

/-- There are calls to be done, and none of them gets on. -/
def Stuck (ops : Operations σ κ ℓ χ) (s : System τ σ κ ℓ) : Prop :=
  (∃ t, s.Busy t) ∧ ∀ e : Event τ κ χ, e.isCall = false → s.next ops e = none

@[simp] theorem threads_put_self (s : System τ σ κ ℓ) (t : τ) (th : Thread κ ℓ) :
    (s.put t th).threads t = th := Function.update_self ..

theorem threads_put_of_ne (s : System τ σ κ ℓ) {t u : τ} (h : u ≠ t) (th : Thread κ ℓ) :
    (s.put t th).threads u = s.threads u := Function.update_of_ne h ..

@[simp] theorem data_put (s : System τ σ κ ℓ) (t : τ) (th : Thread κ ℓ) :
    (s.put t th).data = s.data := rfl

@[simp] theorem holder_put (s : System τ σ κ ℓ) (t : τ) (th : Thread κ ℓ) :
    (s.put t th).holder = s.holder := rfl

/-- What a step can be. -/
theorem next_cases {ops : Operations σ κ ℓ χ} {s s' : System τ σ κ ℓ} {e : Event τ κ χ}
    (h : s.next ops e = some s') :
    (∃ t k, e = .call t k ∧ (s.threads t).waiting = none ∧
      s' = s.put t ⟨some k, (s.threads t).sections⟩) ∨
    (∃ t k, e = .acquire t ∧ s.holder = none ∧ (s.threads t).waiting = some k ∧
      s' = { s.put t ⟨none, ops.enter k :: (s.threads t).sections⟩ with holder := some t }) ∨
    (∃ t c l ls d l', e = .move t c ∧ s.threads t = ⟨none, l :: ls⟩ ∧
      ops.move c s.data l = some (d, l') ∧
      s' = { s.put t ⟨none, l' :: ls⟩ with data := d }) ∨
    (∃ t l ls, e = .release t ∧ s.threads t = ⟨none, l :: ls⟩ ∧ ops.finished l = true ∧
      s' = { s.put t ⟨none, ls⟩ with holder := none }) := by
  cases e with
  | call t k =>
    refine .inl ⟨t, k, rfl, ?_⟩
    unfold next at h
    rcases hth : s.threads t with ⟨_ | k', _ | ⟨l, ls⟩⟩
    · simp only [hth, Option.some.injEq] at h
      exact ⟨rfl, h.symm⟩
    · simp only [hth] at h
      split_ifs at h
      cases h
      exact ⟨rfl, rfl⟩
    all_goals simp [hth] at h
  | acquire t =>
    refine .inr (.inl ?_)
    unfold next at h
    rcases hholder : s.holder with _ | u
    · rcases hth : s.threads t with ⟨_ | k, ls⟩
      · simp [hholder, hth] at h
      · simp only [hholder, hth, Option.some.injEq] at h
        exact ⟨t, k, rfl, rfl, by rw [hth], by rw [hth]; exact h.symm⟩
    · simp [hholder] at h
  | move t c =>
    refine .inr (.inr (.inl ?_))
    unfold next at h
    rcases hth : s.threads t with ⟨_ | k, _ | ⟨l, ls⟩⟩
    · simp [hth] at h
    · simp only [hth, Option.map_eq_some_iff] at h
      obtain ⟨⟨d, l'⟩, hmove, rfl⟩ := h
      exact ⟨t, c, l, ls, d, l', rfl, hth, hmove, rfl⟩
    all_goals simp [hth] at h
  | release t =>
    refine .inr (.inr (.inr ?_))
    unfold next at h
    rcases hth : s.threads t with ⟨_ | k, _ | ⟨l, ls⟩⟩
    · simp [hth] at h
    · simp only [hth] at h
      split_ifs at h with hfinished
      cases h
      exact ⟨t, l, ls, rfl, hth, hfinished, rfl⟩
    all_goals simp [hth] at h

end System

/-! ### The invariant rule -/

/-- What holds of the data while the lock is free, and what holds of them and of a section that has
the lock. -/
structure Rules (ops : Operations σ κ ℓ χ) (free : σ → Prop) (held : σ → ℓ → Prop) : Prop where
  enter : ∀ k d, free d → held d (ops.enter k)
  move : ∀ c d l d' l', held d l → ops.move c d l = some (d', l') → held d' l'
  leave : ∀ d l, held d l → ops.finished l = true → free d

namespace Legal

variable {free : σ → Prop} {held : σ → ℓ → Prop} {s s' : System τ σ κ ℓ}

/-- A thread that calls changes nothing but that it waits. -/
theorem call (h : Legal free held s) (t : τ) (k : κ) :
    Legal free held (s.put t ⟨some k, (s.threads t).sections⟩) := by
  have hsections : ∀ u, ((s.put t ⟨some k, (s.threads t).sections⟩).threads u).sections =
      (s.threads u).sections := by
    intro u
    by_cases hu : u = t
    · rw [hu, System.threads_put_self]
    · rw [System.threads_put_of_ne s hu]
  refine ⟨fun u => ?_, fun u => ?_, h.free, fun u l hl => ?_⟩
  · rw [System.Inside, hsections]
    exact h.holder u
  · rw [hsections]
    exact h.single u
  · rw [hsections] at hl
    exact h.held u l hl

/-- The one thread in a section is put somewhere else in it. -/
theorem put {t : τ} {d : σ} {l : ℓ} {k : Option κ} {holder : Option τ}
    (hothers : ∀ u, u ≠ t → (s.threads u).sections = []) (hholder : holder = some t)
    (hheld : held d l) :
    Legal free held { s.put t ⟨k, [l]⟩ with data := d, holder := holder } := by
  have hother : ∀ u, u ≠ t → ((s.put t ⟨k, [l]⟩).threads u).sections = [] := by
    intro u hu
    rw [System.threads_put_of_ne s hu]
    exact hothers u hu
  refine ⟨fun u => ?_, fun u => ?_, fun hfree => ?_, fun u l' hl => ?_⟩
  · by_cases hu : u = t
    · subst hu
      refine iff_of_true ?_ hholder
      show ((s.put u ⟨k, [l]⟩).threads u).sections ≠ []
      simp
    · refine iff_of_false (fun hin => hin (hother u hu)) fun heq => ?_
      rw [show holder = some u from heq, Option.some_inj] at hholder
      exact hu hholder
  · by_cases hu : u = t
    · subst hu
      show ((s.put u ⟨k, [l]⟩).threads u).sections.length ≤ 1
      simp
    · show ((s.put t ⟨k, [l]⟩).threads u).sections.length ≤ 1
      rw [hother u hu]
      exact Nat.zero_le _
  · rw [show holder = none from hfree] at hholder
    cases hholder
  · have hl : ((s.put t ⟨k, [l]⟩).threads u).sections = [l'] := hl
    by_cases hu : u = t
    · subst hu
      rw [System.threads_put_self] at hl
      cases hl
      exact hheld
    · rw [hother u hu] at hl
      cases hl

/-- The one thread in a section leaves it. -/
theorem release {t : τ} (hothers : ∀ u, u ≠ t → (s.threads u).sections = []) (hfree : free s.data) :
    Legal free held { s.put t ⟨none, []⟩ with holder := none } := by
  have hnone : ∀ u, ((s.put t ⟨none, []⟩).threads u).sections = [] := by
    intro u
    by_cases hu : u = t
    · rw [hu, System.threads_put_self]
    · rw [System.threads_put_of_ne s hu]
      exact hothers u hu
  refine ⟨fun u => iff_of_false (fun hin => hin (hnone u)) (by rintro ⟨⟩), fun u => ?_,
    fun _ => hfree, fun u l hl => ?_⟩
  · show ((s.put t ⟨none, []⟩).threads u).sections.length ≤ 1
    rw [hnone]
    exact Nat.zero_le _
  · have hl : ((s.put t ⟨none, []⟩).threads u).sections = [l] := hl
    rw [hnone] at hl
    cases hl

end Legal

section Rules

variable {ops : Operations σ κ ℓ χ} {free : σ → Prop} {held : σ → ℓ → Prop} {s : System τ σ κ ℓ}

/-- **Step lemma**: any step of any thread keeps what the sections keep. -/
theorem Rules.next (rules : Rules ops free held) {s' : System τ σ κ ℓ} {e : Event τ κ χ}
    (h : Legal free held s) (hnext : s.next ops e = some s') : Legal free held s' := by
  rcases System.next_cases hnext with ⟨t, k, -, -, rfl⟩ | ⟨t, k, -, hfree, -, rfl⟩ |
    ⟨t, c, l, ls, d, l', -, hth, hmove, rfl⟩ | ⟨t, l, ls, -, hth, hfinished, rfl⟩
  · exact h.call t k
  · rw [h.sections_of_free hfree t]
    exact .put (fun u _ => h.sections_of_free hfree u) rfl (rules.enter k _ (h.free hfree))
  all_goals
    obtain rfl := h.sections_eq hth
    have hin : s.Inside t := by
      rw [System.Inside, hth]
      exact List.cons_ne_nil _ _
    have hheld : held s.data l := h.held t l (by rw [hth])
    have hothers := fun u (hu : u ≠ t) => h.sections_of_ne hin hu
  · exact .put hothers ((h.holder t).1 hin) (rules.move c _ _ _ _ hheld hmove)
  · exact .release hothers (rules.leave _ _ hheld hfinished)

theorem Rules.step (rules : Rules ops free held) (h : Legal free held s) (e : Event τ κ χ) :
    Legal free held (s.step ops e) := by
  rw [System.step]
  cases hnext : s.next ops e with
  | none => exact h
  | some s' => exact rules.next h hnext

/-- **Invariant rule**: in every order of the steps of the threads. -/
theorem Rules.always (rules : Rules ops free held) (h : Legal free held s)
    (es : List (Event τ κ χ)) : Run.Always (System.step ops) (Legal free held) s es :=
  Run.always_of_preserved (P := Legal free held) (fun _ e hs => rules.step hs e) h es

end Rules

/-! ### Calls from within a section -/

section Blocked

variable {ops : Operations σ κ ℓ χ} {free : σ → Prop} {held : σ → ℓ → Prop}
  {s s' : System τ σ κ ℓ} {t : τ}

/-- Once a thread has called again from within a section, all that happens is further calls. -/
theorem Legal.call_of_blocked (h : Legal free held s) (ht : s.Blocked t) {e : Event τ κ χ}
    (hnext : s.next ops e = some s') : ∃ u k, e = .call u k ∧ (s.threads u).waiting = none ∧
      s' = s.put u ⟨some k, (s.threads u).sections⟩ := by
  obtain ⟨hwaiting, hin⟩ := ht
  -- a section that goes on or ends is that of the thread, which waits
  have hno : ∀ u l ls, s.threads u ≠ ⟨none, l :: ls⟩ := by
    intro u l ls hu
    have hinside : s.Inside u := by
      rw [System.Inside, hu]
      exact List.cons_ne_nil _ _
    rw [h.unique hin hinside, hu] at hwaiting
    exact hwaiting rfl
  rcases System.next_cases hnext with hcall | ⟨u, k, -, hfree, -, -⟩ |
    ⟨u, c, l, ls, d, l', -, hu, -, -⟩ | ⟨u, l, ls, -, hu, -, -⟩
  · exact hcall
  · exact absurd (h.sections_of_free hfree t) hin
  · exact absurd hu (hno u l ls)
  · exact absurd hu (hno u l ls)

/-- It is still there after a step, and the data are as they were. -/
theorem Blocked.step (h : Legal free held s) (ht : s.Blocked t) (e : Event τ κ χ) :
    (s.step ops e).Blocked t ∧ (s.step ops e).data = s.data := by
  rw [System.step]
  cases hnext : s.next ops e with
  | none => exact ⟨ht, rfl⟩
  | some s' =>
    obtain ⟨u, k, -, hu, rfl⟩ := h.call_of_blocked ht hnext
    have hne : t ≠ u := fun heq => ht.1 (heq ▸ hu)
    refine ⟨?_, rfl⟩
    show (s.put u _).Blocked t
    rw [System.Blocked, System.Inside, System.threads_put_of_ne s hne]
    exact ht

/-- **Nobody ever gets on**: the data stay as they are in whatever order threads try. -/
theorem Blocked.always (rules : Rules ops free held) (h : Legal free held s) (ht : s.Blocked t)
    (es : List (Event τ κ χ)) :
    Run.Always (System.step ops) (fun s' => s'.Blocked t ∧ s'.data = s.data) s es := by
  have hall : Run.Always (System.step ops)
      (fun s' => Legal free held s' ∧ s'.Blocked t ∧ s'.data = s.data) s es := by
    refine Run.always_of_preserved (fun s' e hs' => ?_) ⟨h, ht, rfl⟩ es
    obtain ⟨hlegal, hblocked, hdata⟩ := hs'
    obtain ⟨hstill, hsame⟩ : (s'.step ops e).Blocked t ∧ _ := Blocked.step hlegal hblocked e
    exact ⟨rules.step hlegal e, hstill, hsame.trans hdata⟩
  exact hall.mono fun _ hs' => hs'.2

/-- **Nobody gets on exactly if somebody has called from within a section**, as long as the sections
have steps of their own to take. -/
theorem stuck_iff (h : Legal free held s)
    (hlive : ∀ d l, held d l → ops.finished l = true ∨ ∃ c, (ops.move c d l).isSome = true) :
    s.Stuck ops ↔ ∃ t, s.Blocked t := by
  constructor
  · rintro ⟨⟨t, hbusy⟩, hnone⟩
    by_contra hblocked
    rcases hholder : s.holder with _ | u
    · -- the lock is free, and a waiting thread may take it
      have hsections := h.sections_of_free hholder t
      obtain ⟨k, hk⟩ := Option.ne_none_iff_exists'.1 (hbusy.resolve_right fun hin => hin hsections)
      have hacquire := hnone (.acquire t) rfl
      rcases hth : s.threads t with ⟨waiting, sections⟩
      rw [hth] at hk
      simp [System.next, hholder, hth, show waiting = some k from hk] at hacquire
    · have hin := (h.holder u).2 hholder
      have hwaiting : (s.threads u).waiting = none := by
        by_contra hw
        exact hblocked ⟨u, hw, hin⟩
      rcases hth : s.threads u with ⟨waiting, _ | ⟨l, ls⟩⟩
      · exact hin (by rw [hth])
      · obtain rfl := h.sections_eq hth
        rw [hth] at hwaiting
        obtain rfl : waiting = none := hwaiting
        rcases hlive s.data l (h.held u l (by rw [hth])) with hfinished | ⟨c, hmove⟩
        · have hrelease := hnone (.release u) rfl
          simp [System.next, hth, hfinished] at hrelease
        · have hstep := hnone (.move u c) rfl
          simp only [System.next, hth, Option.map_eq_none_iff] at hstep
          rw [hstep] at hmove
          cases hmove
  · rintro ⟨t, ht⟩
    refine ⟨⟨t, .inl ht.1⟩, fun e he => ?_⟩
    by_contra hsome
    obtain ⟨s', hnext⟩ := Option.ne_none_iff_exists'.1 hsome
    obtain ⟨u, k, rfl, -, -⟩ := h.call_of_blocked ht hnext
    cases he

end Blocked

/-! ### One call at a time -/

/-- Each call of the log, the last one first, has the result that it has when the calls are made one
at a time, and the data are what they are then. -/
def Explains (apply : κ → σ → σ × ρ) (start : σ) : List (κ × ρ) → σ → Prop
  | [], d => d = start
  | (k, r) :: log, d => ∃ before, Explains apply start log before ∧ apply k before = (d, r)

theorem Explains.cons {apply : κ → σ → σ × ρ} {start d d' : σ} {log : List (κ × ρ)} {k : κ} {r : ρ}
    (h : Explains apply start log d) (happly : apply k d = (d', r)) :
    Explains apply start ((k, r) :: log) d' := ⟨d, h, happly⟩

/-- **Invariant rule for sequential histories**. -/
theorem Explains.preserved {apply : κ → σ → σ × ρ} {start : σ} {P : List (κ × ρ) → σ → Prop}
    (hstart : P [] start)
    (hstep : ∀ k d log, P log d → P ((k, (apply k d).2) :: log) (apply k d).1)
    {log : List (κ × ρ)} {d : σ} (h : Explains apply start log d) : P log d := by
  induction log generalizing d with
  | nil =>
    rw [show d = start from h]
    exact hstart
  | cons c log ih =>
    obtain ⟨k, r⟩ := c
    obtain ⟨before, hbefore, happly⟩ := h
    have hnext := hstep k before log (ih hbefore)
    rw [happly] at hnext
    exact hnext

end Guarded
