import Mathlib.Logic.Function.Basic
import Mathlib.Data.List.Nodup
import RoxyGlance.Lib.Run

/-!
# Copies kept by notification

A writer changes a source and then calls everyone in a registry of bounded size, under a lock.  A
reader keeps copies of the source: it makes a copy, registers it, and from then on each call puts a
new version of it into a queue that the reader works through.  The lock guards the registry and not
the source, so that a change may come between a copy and its registration.

* `Sound`: what holds in every order of steps;
* `upToDate_iff`: every registered copy is up to date, or about to be, exactly as long as every copy
  is registered in time and with room in the registry, and every new version finds its queue;
* `Sound.shown_eq`: a copy that is up to date and drained shows the source.
-/

namespace Mirror

variable {σ ι α : Type}

/-! ### The copies -/

/-- A copy, the versions of it that wait in the queue, and the number of the change the last of them
was made after. -/
structure Copy (ι : Type) where
  shown : ι
  queue : List ι
  seen : ℕ

namespace Copy

/-- The version that will be shown when the queue is drained. -/
def last (c : Copy ι) : ι := c.queue.getLast?.getD c.shown

/-- A new version is queued. -/
def push (item : ι) (version : ℕ) (c : Copy ι) : Copy ι :=
  { c with queue := c.queue ++ [item], seen := version }

/-- The next version is shown. -/
def deliver (c : Copy ι) : Copy ι :=
  match c.queue with
  | [] => c
  | item :: rest => { c with shown := item, queue := rest }

@[simp] theorem last_push (item : ι) (version : ℕ) (c : Copy ι) :
    (c.push item version).last = item := by
  simp [last, push]

@[simp] theorem seen_push (item : ι) (version : ℕ) (c : Copy ι) :
    (c.push item version).seen = version := rfl

@[simp] theorem seen_deliver (c : Copy ι) : c.deliver.seen = c.seen := by
  unfold deliver
  split <;> rfl

@[simp] theorem last_deliver (c : Copy ι) : c.deliver.last = c.last := by
  unfold deliver
  split
  · rfl
  · rename_i item rest hqueue
    cases rest with
    | nil => simp [last, hqueue]
    | cons next rest => simp [last, hqueue, List.getLast?_cons]

theorem last_of_drained {c : Copy ι} (h : c.queue = []) : c.last = c.shown := by simp [last, h]

end Copy

/-! ### The system -/

/-- Where the writer is. -/
inductive Writer
  | idle
  /-- It has changed the source and is about to take the lock. -/
  | stored
  /-- It holds the lock and has these still to call. -/
  | notifying (rest : List ℕ)
  deriving DecidableEq, Repr

/-- The lock is taken. -/
def Writer.locked : Writer → Bool
  | .notifying _ => true
  | _ => false

/-- The source with the number of its changes, the writer, the registry, and the copies, of which one
may not be registered yet. -/
structure System (σ ι : Type) where
  source : σ
  version : ℕ := 0
  writer : Writer := .idle
  registry : List ℕ := []
  copies : ℕ → Option (Copy ι) := fun _ => none
  fresh : Option ℕ := none
  /-- How many copies have been made. -/
  count : ℕ := 0
  /-- No call has failed. -/
  alive : Bool := true

/-- A step of the reader or of the writer. -/
inductive Event (α : Type)
  | create
  | register
  | deliver (id : ℕ)
  | destroy (id : ℕ)
  | change (a : α)
  | lock
  /-- The next one is called; its queue takes the new version or does not. -/
  | notify (queued : Bool)
  | unlock

variable (view : σ → Option ι) (next : σ → α → Option σ) (capacity : ℕ)

/-- The reader makes a copy, if one can be made. -/
def create (s : System σ ι) : System σ ι :=
  match s.fresh, view s.source with
  | none, some item =>
    { s with
      copies := Function.update s.copies s.count (some ⟨item, [], s.version⟩)
      fresh := some s.count
      count := s.count + 1 }
  | _, _ => s

/-- The reader registers it; it has to wait for the lock. -/
def register (s : System σ ι) : System σ ι :=
  match s.fresh with
  | none => s
  | some id =>
    if s.writer.locked then s
    else
      { s with
        registry := if s.registry.length < capacity then s.registry ++ [id] else s.registry
        fresh := none }

/-- The reader takes the next version from a queue. -/
def deliver (id : ℕ) (s : System σ ι) : System σ ι :=
  if s.fresh.isSome then s
  else { s with copies := Function.update s.copies id ((s.copies id).map Copy.deliver) }

/-- The reader gives up a copy; it has to wait for the lock. -/
def destroy (id : ℕ) (s : System σ ι) : System σ ι :=
  if s.fresh.isSome || s.writer.locked then s
  else
    { s with
      registry := s.registry.filter (· ≠ id)
      copies := Function.update s.copies id none }

/-- The writer changes the source, or finds nothing to change. -/
def change (a : α) (s : System σ ι) : System σ ι :=
  match s.writer, next s.source a with
  | .idle, some source => { s with source, version := s.version + 1, writer := .stored }
  | _, _ => s

/-- The writer takes the lock. -/
def lock (s : System σ ι) : System σ ι :=
  match s.writer with
  | .stored => { s with writer := .notifying s.registry }
  | _ => s

/-- The writer calls the next one in the registry.  A call that cannot make a copy ends everything. -/
def notify (queued : Bool) (s : System σ ι) : System σ ι :=
  match s.writer with
  | .notifying (id :: rest) =>
    match view s.source with
    | none => { s with alive := false }
    | some item =>
      { s with
        copies := if queued
          then Function.update s.copies id ((s.copies id).map (Copy.push item s.version))
          else s.copies
        writer := .notifying rest }
  | _ => s

/-- The writer lets go of the lock. -/
def unlock (s : System σ ι) : System σ ι :=
  match s.writer with
  | .notifying [] => { s with writer := .idle }
  | _ => s

/-- One step. -/
def step (s : System σ ι) (e : Event α) : System σ ι :=
  if !s.alive then s
  else match e with
    | .create => create view s
    | .register => register capacity s
    | .deliver id => deliver id s
    | .destroy id => destroy id s
    | .change a => change next a s
    | .lock => lock s
    | .notify queued => notify view queued s
    | .unlock => unlock s

/-! ### What holds in every order -/

/-- What every step keeps. -/
structure Sound (s : System σ ι) : Prop where
  nodup : s.registry.Nodup
  registered : ∀ id ∈ s.registry, (s.copies id).isSome = true
  fresh : ∀ id, s.fresh = some id → id ∉ s.registry ∧ (s.copies id).isSome = true
  unmade : ∀ id, s.count ≤ id → s.copies id = none
  /-- A copy that has seen the last change is one of the source. -/
  seen : ∀ id c, s.copies id = some c →
    c.seen ≤ s.version ∧ (c.seen = s.version → view s.source = some c.last)
  rest : ∀ rest, s.writer = .notifying rest → rest.Nodup ∧ ∀ id ∈ rest, id ∈ s.registry

/-- A copy has seen the last change, or will be called for it. -/
def Covered (s : System σ ι) (id : ℕ) (c : Copy ι) : Prop :=
  c.seen = s.version ∨ s.writer = .stored ∨ ∃ rest, s.writer = .notifying rest ∧ id ∈ rest

/-- Every copy that is finished is registered, and has seen the last change or will be called. -/
def UpToDate (s : System σ ι) : Prop :=
  s.alive = true → ∀ id c, s.copies id = some c → s.fresh ≠ some id →
    id ∈ s.registry ∧ Covered s id c

/-- A registration finds room and is in time: no round of calls for a change after the copy was made
has begun.  A call finds the queue, or brings nothing new. -/
def Timely (s : System σ ι) : Event α → Prop
  | .register => s.alive = true → s.writer.locked = false → ∀ id c, s.fresh = some id →
      s.copies id = some c → s.registry.length < capacity ∧ Covered s id c
  | .notify queued => s.alive = true → ∀ id rest c, s.writer = .notifying (id :: rest) →
      s.copies id = some c → view s.source ≠ none → queued = true ∨ c.seen = s.version
  | _ => True

variable {view next capacity} {s : System σ ι}

theorem sound_start (source : σ) : Sound view ({ source } : System σ ι) where
  nodup := List.nodup_nil
  registered _ h := by cases h
  fresh _ h := by cases h
  unmade _ _ := rfl
  seen _ _ h := by cases h
  rest _ h := by cases h

/-- The only copy that changes is brought to a version it may have. -/
theorem Sound.updateCopy (h : Sound view s) (id : ℕ) {f : Copy ι → Copy ι}
    (hf : ∀ c, s.copies id = some c → (f c).seen ≤ s.version ∧
      ((f c).seen = s.version → view s.source = some (f c).last)) :
    Sound view { s with copies := Function.update s.copies id ((s.copies id).map f) } := by
  have hsome : ∀ id', (Function.update s.copies id ((s.copies id).map f) id').isSome =
      (s.copies id').isSome := by
    intro id'
    by_cases hid : id' = id
    · rw [hid, Function.update_self, Option.isSome_map]
    · rw [Function.update_of_ne hid]
  refine ⟨h.nodup, fun id' hid' => ?_, fun id' hid' => ?_, fun id' hid' => ?_, fun id' c hc => ?_,
    h.rest⟩
  · rw [hsome]
    exact h.registered id' hid'
  · rw [hsome]
    exact h.fresh id' hid'
  · rw [← Option.isNone_iff_eq_none, ← Option.not_isSome, hsome, h.unmade id' hid']
    rfl
  · by_cases hid : id' = id
    · subst hid
      simp only [Function.update_self, Option.map_eq_some_iff] at hc
      obtain ⟨c', hc', rfl⟩ := hc
      exact hf c' hc'
    · simp only [Function.update_of_ne hid] at hc
      exact h.seen id' c hc

theorem sound_create (h : Sound view s) : Sound view (create view s) := by
  unfold create
  cases hfresh : s.fresh with
  | some id => exact h
  | none =>
    cases hview : view s.source with
    | none => exact h
    | some item =>
      have hnone : s.copies s.count = none := h.unmade _ (Nat.le_refl _)
      have hold : ∀ id, (s.copies id).isSome = true →
          Function.update s.copies s.count (some ⟨item, [], s.version⟩) id = s.copies id := by
        intro id hid
        refine Function.update_of_ne (fun heq => ?_) _ _
        rw [heq, hnone] at hid
        cases hid
      dsimp only
      refine ⟨h.nodup, fun id hid => ?_, fun id hid => ?_, fun id hid => ?_, fun id c hc => ?_,
        h.rest⟩
      · dsimp only
        rw [hold id (h.registered id hid)]
        exact h.registered id hid
      · cases hid
        refine ⟨fun hmem => ?_, by dsimp only; rw [Function.update_self]; rfl⟩
        have hsome := h.registered _ hmem
        rw [hnone] at hsome
        cases hsome
      · have hid' : s.count + 1 ≤ id := hid
        dsimp only
        rw [Function.update_of_ne (by omega)]
        exact h.unmade id (by omega)
      · by_cases hid : id = s.count
        · subst hid
          simp only [Function.update_self, Option.some.injEq] at hc
          subst hc
          exact ⟨Nat.le_refl _, fun _ => hview⟩
        · simp only [Function.update_of_ne hid] at hc
          exact h.seen id c hc

theorem sound_register (h : Sound view s) : Sound view (register capacity s) := by
  unfold register
  cases hfresh : s.fresh with
  | none => exact h
  | some id =>
    cases hlocked : s.writer.locked with
    | true => exact h
    | false =>
      simp only [Bool.false_eq_true, if_false]
      obtain ⟨hnot, hsome⟩ := h.fresh id hfresh
      have hrest : ∀ rest, s.writer ≠ .notifying rest := fun rest hw => by
        rw [hw] at hlocked
        cases hlocked
      refine ⟨?_, fun id' hid' => ?_, fun id' hid' => (by cases hid'), h.unmade, h.seen,
        fun rest hw => absurd hw (hrest rest)⟩
      · dsimp only
        split_ifs
        · exact List.nodup_append.2 ⟨h.nodup, List.nodup_singleton id, fun a ha b hb heq => by
            rw [List.mem_singleton.1 hb] at heq
            exact hnot (heq ▸ ha)⟩
        · exact h.nodup
      · have hmem : id' ∈ s.registry ∨ id' = id := by
          split_ifs at hid'
          · exact (List.mem_append.1 hid').imp_right List.mem_singleton.1
          · exact Or.inl hid'
        rcases hmem with hmem | rfl
        · exact h.registered id' hmem
        · exact hsome

theorem sound_deliver (id : ℕ) (h : Sound view s) : Sound view (deliver id s) := by
  unfold deliver
  split_ifs with hfresh
  · exact h
  · refine h.updateCopy id fun c hc => ?_
    rw [Copy.seen_deliver, Copy.last_deliver]
    exact h.seen id c hc

theorem sound_destroy (id : ℕ) (h : Sound view s) : Sound view (destroy id s) := by
  unfold destroy
  split_ifs with hbusy
  · exact h
  · simp only [Bool.or_eq_true, not_or, Bool.not_eq_true] at hbusy
    obtain ⟨hfresh, hlocked⟩ := hbusy
    refine ⟨h.nodup.filter _, fun id' hid' => ?_, fun id' hid' => ?_, fun id' hid' => ?_,
      fun id' c hc => ?_, fun rest hw => ?_⟩
    · obtain ⟨hmem, hne⟩ := List.mem_filter.1 hid'
      dsimp only
      rw [Function.update_of_ne (of_decide_eq_true hne)]
      exact h.registered id' hmem
    · rw [hid'] at hfresh
      cases hfresh
    · dsimp only
      by_cases hid : id' = id
      · rw [hid, Function.update_self]
      · rw [Function.update_of_ne hid]
        exact h.unmade id' hid'
    · by_cases hid : id' = id
      · subst hid
        simp only [Function.update_self] at hc
        cases hc
      · simp only [Function.update_of_ne hid] at hc
        exact h.seen id' c hc
    · have hw' : s.writer = .notifying rest := hw
      rw [hw'] at hlocked
      cases hlocked

theorem sound_change (a : α) (h : Sound view s) : Sound view (change next a s) := by
  unfold change
  cases hw : s.writer with
  | stored | notifying => exact h
  | idle =>
    cases hnext : next s.source a with
    | none => exact h
    | some source =>
      refine ⟨h.nodup, h.registered, h.fresh, h.unmade, fun id c hc => ?_, fun rest hr => by cases hr⟩
      have hle := (h.seen id c hc).1
      refine ⟨Nat.le_succ_of_le hle, fun heq => ?_⟩
      have hseen : c.seen = s.version + 1 := heq
      omega

theorem sound_lock (h : Sound view s) : Sound view (lock s) := by
  unfold lock
  cases hw : s.writer with
  | idle | notifying => exact h
  | stored =>
    refine ⟨h.nodup, h.registered, h.fresh, h.unmade, h.seen, fun rest hr => ?_⟩
    cases hr
    exact ⟨h.nodup, fun _ hid => hid⟩

theorem sound_notify (queued : Bool) (h : Sound view s) : Sound view (notify view queued s) := by
  unfold notify
  cases hw : s.writer with
  | idle | stored => exact h
  | notifying rest =>
    cases rest with
    | nil => exact h
    | cons id rest =>
      obtain ⟨hnodup, hmem⟩ := h.rest _ hw
      have hrest : ∀ rest', Writer.notifying rest = .notifying rest' →
          rest'.Nodup ∧ ∀ id ∈ rest', id ∈ s.registry := by
        rintro rest' ⟨⟩
        exact ⟨hnodup.of_cons, fun id hid => hmem id (List.mem_cons_of_mem _ hid)⟩
      cases hview : view s.source with
      | none => exact ⟨h.nodup, h.registered, h.fresh, h.unmade, h.seen,
        fun rest' hr => h.rest rest' (hw.trans hr)⟩
      | some item =>
        cases queued with
        | false => exact ⟨h.nodup, h.registered, h.fresh, h.unmade, h.seen, hrest⟩
        | true =>
          have hpush := h.updateCopy id (f := Copy.push item s.version) fun c _ => by
            rw [Copy.seen_push, Copy.last_push]
            exact ⟨Nat.le_refl _, fun _ => hview⟩
          exact ⟨hpush.nodup, hpush.registered, hpush.fresh, hpush.unmade, hpush.seen, hrest⟩

theorem sound_unlock (h : Sound view s) : Sound view (unlock s) := by
  unfold unlock
  split
  · exact ⟨h.nodup, h.registered, h.fresh, h.unmade, h.seen, fun rest hr => by cases hr⟩
  · exact h

/-- **Every step.** -/
theorem sound_step (e : Event α) (h : Sound view s) : Sound view (step view next capacity s e) := by
  unfold step
  split_ifs
  · exact h
  · cases e with
    | create => exact sound_create h
    | register => exact sound_register h
    | deliver id => exact sound_deliver id h
    | destroy id => exact sound_destroy id h
    | change a => exact sound_change a h
    | lock => exact sound_lock h
    | notify queued => exact sound_notify queued h
    | unlock => exact sound_unlock h

/-! ### Staying up to date -/

theorem upToDate_create (h : UpToDate s) : UpToDate (create view s) := by
  unfold create
  cases hfresh : s.fresh with
  | some id => exact h
  | none =>
    cases hview : view s.source with
    | none => exact h
    | some item =>
      intro halive id c hc hne
      have hid : id ≠ s.count := fun heq => hne (by rw [heq])
      dsimp only at hc
      rw [Function.update_of_ne hid] at hc
      exact h halive id c hc (by rw [hfresh]; exact nofun)

theorem upToDate_register (hs : Sound view s) (h : UpToDate s) (halive : s.alive = true) :
    UpToDate (register capacity s) ↔ Timely view capacity s (.register : Event α) := by
  unfold register Timely
  cases hfresh : s.fresh with
  | none => exact iff_of_true h fun _ _ id c hid => by cases hid
  | some id =>
    cases hlocked : s.writer.locked with
    | true => exact iff_of_true h fun _ hfree => by cases hfree
    | false =>
      simp only [Bool.false_eq_true, if_false, Option.some.injEq]
      obtain ⟨hnot, hsome⟩ := hs.fresh id hfresh
      constructor
      · rintro hup - - id' c rfl hc
        obtain ⟨hmem, hcovered⟩ := hup halive id c hc nofun
        dsimp only at hmem
        split_ifs at hmem with hroom
        · exact ⟨hroom, hcovered⟩
        · exact absurd hmem hnot
      · intro htimely _ id' c hc _
        by_cases hid : id' = id
        · subst hid
          obtain ⟨hroom, hcovered⟩ := htimely halive trivial id' c rfl hc
          dsimp only
          rw [if_pos hroom]
          exact ⟨List.mem_append_right _ (List.mem_singleton_self _), hcovered⟩
        · obtain ⟨hmem, hcovered⟩ := h halive id' c hc (by
            rw [hfresh]
            exact fun heq => hid (Option.some.inj heq).symm)
          refine ⟨?_, hcovered⟩
          dsimp only
          split_ifs
          · exact List.mem_append_left _ hmem
          · exact hmem

theorem upToDate_deliver (id : ℕ) (h : UpToDate s) : UpToDate (deliver id s) := by
  unfold deliver
  split_ifs with hfresh
  · exact h
  · intro halive id' c hc hne
    by_cases hid : id' = id
    · subst hid
      simp only [Function.update_self, Option.map_eq_some_iff] at hc
      obtain ⟨c', hc', rfl⟩ := hc
      obtain ⟨hmem, hcovered⟩ := h halive id' c' hc' hne
      refine ⟨hmem, ?_⟩
      unfold Covered at hcovered ⊢
      rwa [Copy.seen_deliver]
    · simp only [Function.update_of_ne hid] at hc
      exact h halive id' c hc hne

theorem upToDate_destroy (id : ℕ) (h : UpToDate s) : UpToDate (destroy id s) := by
  unfold destroy
  split_ifs with hbusy
  · exact h
  · intro halive id' c hc hne
    have hid : id' ≠ id := by
      rintro rfl
      simp only [Function.update_self] at hc
      cases hc
    simp only [Function.update_of_ne hid] at hc
    obtain ⟨hmem, hcovered⟩ := h halive id' c hc hne
    exact ⟨List.mem_filter.2 ⟨hmem, decide_eq_true hid⟩, hcovered⟩

theorem upToDate_change (a : α) (h : UpToDate s) : UpToDate (change next a s) := by
  unfold change
  cases hw : s.writer with
  | stored | notifying => exact h
  | idle =>
    cases hnext : next s.source a with
    | none => exact h
    | some source =>
      intro halive id c hc hne
      exact ⟨(h halive id c hc hne).1, Or.inr (Or.inl rfl)⟩

theorem upToDate_lock (h : UpToDate s) : UpToDate (lock s) := by
  unfold lock
  cases hw : s.writer with
  | idle | notifying => exact h
  | stored =>
    intro halive id c hc hne
    have hmem := (h halive id c hc hne).1
    exact ⟨hmem, Or.inr (Or.inr ⟨_, rfl, hmem⟩)⟩

theorem upToDate_unlock (h : UpToDate s) : UpToDate (unlock s) := by
  unfold unlock
  split
  · rename_i hw
    intro halive id c hc hne
    obtain ⟨hmem, hcovered⟩ := h halive id c hc hne
    refine ⟨hmem, hcovered.imp_right fun hcalled => ?_⟩
    rcases hcalled with hstored | ⟨rest, hrest, hid⟩
    · rw [hw] at hstored
      cases hstored
    · rw [hw] at hrest
      cases hrest
      cases hid
  · exact h

/-- Who is still to be called, apart from the one called now. -/
theorem Covered.tail {t : System σ ι} {id id' : ℕ} {rest : List ℕ} {c : Copy ι}
    (hw : s.writer = .notifying (id :: rest)) (h : Covered s id' c) (hid : id' ≠ id)
    (hversion : t.version = s.version) (hwriter : t.writer = .notifying rest) : Covered t id' c := by
  rcases h with hseen | hstored | ⟨rest', hrest, hmem⟩
  · exact Or.inl (hseen.trans hversion.symm)
  · rw [hw] at hstored
    cases hstored
  · rw [hw] at hrest
    cases hrest
    exact Or.inr (Or.inr ⟨rest, hwriter, (List.mem_cons.1 hmem).resolve_left hid⟩)

theorem upToDate_notify (queued : Bool) (hs : Sound view s) (h : UpToDate s)
    (halive : s.alive = true) :
    UpToDate (notify view queued s) ↔ Timely view capacity s (.notify queued : Event α) := by
  unfold notify Timely
  cases hw : s.writer with
  | idle | stored => exact iff_of_true h fun _ _ _ _ hr => by cases hr
  | notifying rest =>
    cases rest with
    | nil => exact iff_of_true h fun _ _ _ _ hr => by cases hr
    | cons id rest =>
      obtain ⟨hnodup, hmem⟩ := hs.rest _ hw
      have hnot : id ∉ rest := (List.nodup_cons.1 hnodup).1
      have hid : id ∈ s.registry := hmem id List.mem_cons_self
      have hfresh : s.fresh ≠ some id := fun heq => (hs.fresh id heq).1 hid
      cases hview : view s.source with
      | none =>
        refine iff_of_true (fun hdead => by cases hdead) ?_
        rintro - id' rest' c ⟨⟩ hc hne
        exact absurd rfl hne
      | some item =>
        cases queued with
        | true =>
          refine iff_of_true ?_ fun _ _ _ _ _ _ _ => Or.inl rfl
          intro _ id' c hc hne
          simp only [if_true] at hc
          by_cases heq : id' = id
          · subst heq
            simp only [Function.update_self, Option.map_eq_some_iff] at hc
            obtain ⟨c', hc', rfl⟩ := hc
            exact ⟨hid, Or.inl rfl⟩
          · simp only [Function.update_of_ne heq] at hc
            obtain ⟨hmem', hcovered⟩ := h halive id' c hc hne
            exact ⟨hmem', hcovered.tail hw heq rfl rfl⟩
        | false =>
          constructor
          · rintro hup - id' rest' c ⟨⟩ hc -
            obtain ⟨-, hcovered⟩ := hup halive id c hc hfresh
            refine Or.inr (hcovered.resolve_right fun hcalled => ?_)
            rcases hcalled with hstored | ⟨rest', hrest, hmem'⟩
            · cases hstored
            · cases hrest
              exact hnot hmem'
          · intro htimely _ id' c hc hne
            obtain ⟨hmem', hcovered⟩ := h halive id' c hc hne
            refine ⟨hmem', ?_⟩
            by_cases heq : id' = id
            · subst heq
              have hseen := htimely halive id' rest c rfl hc nofun
              exact Or.inl (hseen.resolve_left Bool.false_ne_true)
            · exact hcovered.tail hw heq rfl rfl

/-- What one step needs to keep the copies up to date. -/
theorem upToDate_step_iff (e : Event α) (hs : Sound view s) (h : UpToDate s) :
    UpToDate (step view next capacity s e) ↔ Timely view capacity s e := by
  cases halive : s.alive with
  | false =>
    have hstep : step view next capacity s e = s := by
      unfold step
      rw [halive]
      rfl
    rw [hstep]
    refine iff_of_true h ?_
    cases e <;> first
      | trivial
      | exact fun htrue => by rw [halive] at htrue; cases htrue
  | true =>
    unfold step
    rw [halive, if_neg (by decide)]
    cases e with
    | create => exact iff_of_true (upToDate_create h) trivial
    | register => exact upToDate_register hs h halive
    | deliver id => exact iff_of_true (upToDate_deliver id h) trivial
    | destroy id => exact iff_of_true (upToDate_destroy id h) trivial
    | change a => exact iff_of_true (upToDate_change a h) trivial
    | lock => exact iff_of_true (upToDate_lock h) trivial
    | notify queued => exact upToDate_notify queued hs h halive
    | unlock => exact iff_of_true (upToDate_unlock h) trivial

/-- **All copies stay up to date exactly in the runs whose registrations and calls are timely.** -/
theorem upToDate_iff (source : σ) (events : List (Event α)) :
    Run.Always (step view next capacity) UpToDate ({ source } : System σ ι) events ↔
      Run.AllSteps (step view next capacity) (Timely view capacity)
        ({ source } : System σ ι) events :=
  Run.always_iff_of_invariant (P := fun s => Sound view s ∧ UpToDate s)
    (fun _ e hs hg => ⟨sound_step e hs.1, (upToDate_step_iff e hs.1 hs.2).2 hg⟩)
    (fun _ hs => hs.2) (fun _ e hs hq => (upToDate_step_iff e hs.1 hs.2).1 hq)
    ⟨sound_start source, fun _ _ _ hc => by cases hc⟩ events

/-- **Timely runs** keep everything. -/
theorem always_of_timely {source : σ} {events : List (Event α)}
    (h : Run.AllSteps (step view next capacity) (Timely view capacity)
      ({ source } : System σ ι) events) :
    Run.Always (step view next capacity) (fun s => Sound view s ∧ UpToDate s)
      ({ source } : System σ ι) events :=
  Run.always_of_allSteps
    (fun _ e hs hg => ⟨sound_step e hs.1, (upToDate_step_iff e hs.1 hs.2).2 hg⟩)
    ⟨sound_start source, fun _ _ _ hc => by cases hc⟩ h

/-- A change that comes between a copy and its registration is missed. -/
example :
    let s : System ℕ ℕ := List.foldl (step some (fun _ a => some a) 3) { source := 0 }
      [.create, .change 1, .lock, .unlock, .register]
    s.source = 1 ∧ s.registry = [0] ∧ (s.copies 0).map Copy.shown = some 0 := by
  decide

/-- **A copy that is up to date and drained shows the source**, when nobody is being called. -/
theorem Sound.shown_eq (h : Sound view s) (hup : UpToDate s) (halive : s.alive = true)
    (hidle : s.writer = .idle) {id : ℕ} {c : Copy ι} (hc : s.copies id = some c)
    (hfresh : s.fresh ≠ some id) (hdrained : c.queue = []) : view s.source = some c.shown := by
  obtain ⟨-, hcovered⟩ := hup halive id c hc hfresh
  rw [← Copy.last_of_drained hdrained]
  refine (h.seen id c hc).2 ?_
  rcases hcovered with hseen | hstored | ⟨rest, hrest, -⟩
  · exact hseen
  · rw [hidle] at hstored
    cases hstored
  · rw [hidle] at hrest
    cases hrest

end Mirror
