import EngineIo.Concurrency.Pool

set_option autoImplicit false

/-! # Timers

A program whose sections arm timers runs against a clock. The function of a timer is started by an idle
goroutine, not before the timer is due, and the goroutine then runs it. Neither happens at once: a timer may be
late, and a goroutine waits for the processor and for locks. `Slack` bounds both, and a clock that keeps to it
advances only as far as no pending timer and no started function is overdue.

A timer that is armed again is the same timer with a new deadline, so a function that was started before may still
run. `Timers.Reach.not_overdue` is what every timer guarantees, and the other rules relate one timer to another. -/

namespace Concurrency

variable {σ ℓ γ κ : Type}

/-- The timers of a program. -/
structure Timers (P : Program σ ℓ γ) (κ : Type) where
  pending : κ → σ → Bool
  /-- The delay with which a section arms the timer, if it does. -/
  arms : κ → σ → ℓ → γ → Option Nat
  /-- A goroutine starts the function of the timer. -/
  fires : κ → σ → γ → Bool
  /-- A goroutine has yet to run the function of the timer. -/
  serves : κ → ℓ → Bool
  pending_init : ∀ {k s}, P.init s → pending k s = false
  pending_of_exec : ∀ {k s l a s' l'}, P.exec s l a = some (s', l') → pending k s' = true →
    (arms k s l a).isSome = true ∨ pending k s = true
  pending_of_fires : ∀ {k s l a r}, P.exec s l a = some r → fires k s a = true → pending k s = true
  serves_of_fires : ∀ {k s l a s' l'}, P.exec s l a = some (s', l') → fires k s a = true → serves k l' = true

/-- How late the function of a timer may be started, and how long a goroutine may take to run it. -/
structure Slack where
  late : Nat
  run : Nat

/-- A pool with the time, when each timer was last armed and with which delay, and when a goroutine started the
    function that it has yet to run. -/
structure Timed (σ ℓ κ : Type) where
  pool : Pool σ ℓ
  now : Nat
  armed : κ → Nat
  delay : κ → Nat
  started : Nat → κ → Option Nat

namespace Timers

variable {P : Program σ ℓ γ} (T : Timers P κ)

/-- Nothing is overdue at the time `now`. -/
def Punctual (slack : Slack) (t : Timed σ ℓ κ) (now : Nat) : Prop :=
  (∀ k, T.pending k t.pool.shared = true → now ≤ t.armed k + t.delay k + slack.late) ∧
    ∀ i k time, t.started i k = some time → now ≤ time + slack.run

/-- Goroutine `i` runs a section and is at `l'` then. -/
def after (t : Timed σ ℓ κ) (i : Nat) (a : γ) (s' : σ) (l' : ℓ) : Timed σ ℓ κ where
  pool := ⟨s', Function.update t.pool.thread i l'⟩
  now := t.now
  armed k := if (T.arms k t.pool.shared (t.pool.thread i) a).isSome then t.now else t.armed k
  delay k := (T.arms k t.pool.shared (t.pool.thread i) a).getD (t.delay k)
  started := Function.update t.started i fun k =>
    if T.fires k t.pool.shared a then some t.now else if T.serves k l' then t.started i k else none

/-- What is reached in time by schedules whose every section meets `C`. -/
inductive Reach (slack : Slack) (C : σ → ℓ → γ → Prop) : Timed σ ℓ κ → Prop
  | init {s : σ} (h : P.init s) : Reach slack C ⟨⟨s, fun _ => P.idle⟩, 0, fun _ => 0, fun _ => 0, fun _ _ => none⟩
  | wait {t : Timed σ ℓ κ} (ht : Reach slack C t) (now : Nat) (h : t.now ≤ now) (hp : T.Punctual slack t now) :
      Reach slack C { t with now }
  | step {t : Timed σ ℓ κ} (ht : Reach slack C t) (i : Nat) (a : γ) (s' : σ) (l' : ℓ)
      (hC : C t.pool.shared (t.pool.thread i) a)
      (hx : P.exec t.pool.shared (t.pool.thread i) a = some (s', l'))
      (hdue : ∀ k, T.fires k t.pool.shared a = true → t.armed k + t.delay k ≤ t.now) :
      Reach slack C (T.after t i a s' l')

/-- What any schedule reaches in time. -/
abbrev Reachable (slack : Slack) : Timed σ ℓ κ → Prop := T.Reach slack fun _ _ _ => True

variable {T} {slack : Slack} {C : σ → ℓ → γ → Prop} {t : Timed σ ℓ κ}

theorem Reach.pool (ht : T.Reach slack C t) : P.Reach C t.pool := by
  induction ht with
  | init h => exact .init h
  | wait _ _ _ _ ih => exact ih
  | step _ i a s' l' hC hx _ ih => exact .step ih hC (Program.step_of_exec hx)

/-- A schedule that starts no function of a timer can be run at any time. -/
theorem Reach.runIf {D : σ → ℓ → γ → Prop} [∀ s l a, Decidable (D s l a)]
    (hD : ∀ s l a, D s l a → C s l a ∧ ∀ k, T.fires k s a = false) (ht : T.Reach slack C t) {as : List (Nat × γ)}
    {c : Pool σ ℓ} (h : P.runIf D t.pool as = some c) : ∃ t', T.Reach slack C t' ∧ t'.pool = c ∧ t'.now = t.now := by
  induction as generalizing t with
  | nil => exact ⟨t, ht, Option.some.inj h, rfl⟩
  | cons ia rest ih =>
    rw [Program.runIf, Option.ite_none_right_eq_some] at h
    obtain ⟨c₁, h₁, h₂⟩ := Option.bind_eq_some_iff.1 h.2
    obtain ⟨s', l', hx, rfl⟩ := Program.step_eq_some h₁
    obtain ⟨hC, hfires⟩ := hD _ _ _ h.1
    have hstep := ht.step ia.1 ia.2 s' l' hC hx fun k hk => absurd (hk.symm.trans (hfires k)) (by decide)
    obtain ⟨t', ht', hpool, hnow⟩ := ih hstep h₂
    exact ⟨t', ht', hpool, hnow⟩

/-! ## What a section does -/

section

variable {i : Nat} {a : γ} {s' : σ} {l' : ℓ} {k : κ}

theorem after_started_self (t : Timed σ ℓ κ) :
    (T.after t i a s' l').started i k =
      if T.fires k t.pool.shared a then some t.now else if T.serves k l' then t.started i k else none := by
  simp [after]

theorem after_started_of_ne (t : Timed σ ℓ κ) {j : Nat} (h : j ≠ i) :
    (T.after t i a s' l').started j = t.started j := by
  simp [after, h]

theorem after_armed_of_arms (h : (T.arms k t.pool.shared (t.pool.thread i) a).isSome = true) :
    (T.after t i a s' l').armed k = t.now :=
  if_pos h

theorem after_armed_of_not_arms (h : ¬ (T.arms k t.pool.shared (t.pool.thread i) a).isSome = true) :
    (T.after t i a s' l').armed k = t.armed k ∧ (T.after t i a s' l').delay k = t.delay k := by
  refine ⟨if_neg h, ?_⟩
  rw [Option.not_isSome_iff_eq_none] at h
  simp [after, h]

/-- A function that a goroutine has yet to run was started in this section or before. -/
theorem after_started_eq_some {j : Nat} {time : Nat} (h : (T.after t i a s' l').started j k = some time) :
    j = i ∧ T.fires k t.pool.shared a = true ∧ time = t.now ∨ t.started j k = some time := by
  by_cases hj : j = i
  · subst hj
    rw [after_started_self] at h
    split at h
    · next hf => exact .inl ⟨rfl, hf, (Option.some.inj h).symm⟩
    · split at h
      · exact .inr h
      · cases h
  · rw [after_started_of_ne t hj] at h
    exact .inr h

end

/-! ## Deadlines -/

theorem Reach.armed_le (ht : T.Reach slack C t) (k : κ) : t.armed k ≤ t.now := by
  induction ht with
  | init => exact Nat.le_refl _
  | wait _ now h _ ih => exact Nat.le_trans ih h
  | @step t _ i a s' l' _ _ _ ih =>
    by_cases h : (T.arms k t.pool.shared (t.pool.thread i) a).isSome = true
    · rw [after_armed_of_arms h]
      exact Nat.le_refl _
    · rw [(after_armed_of_not_arms h).1]
      exact ih

theorem Reach.punctual (ht : T.Reach slack C t) : T.Punctual slack t t.now := by
  induction ht with
  | init h =>
    refine ⟨fun k hk => ?_, nofun⟩
    exact absurd (hk.symm.trans (T.pending_init h)) (by decide)
  | wait _ now _ hp => exact hp
  | @step t _ i a s' l' _ hx _ ih =>
    refine ⟨fun k hk => ?_, fun j k time hstarted => ?_⟩
    · by_cases h : (T.arms k t.pool.shared (t.pool.thread i) a).isSome = true
      · rw [after_armed_of_arms h]
        show t.now ≤ _
        omega
      · rw [(after_armed_of_not_arms h).1, (after_armed_of_not_arms h).2]
        exact ih.1 k ((T.pending_of_exec hx hk).resolve_left h)
    · rcases after_started_eq_some hstarted with ⟨-, -, rfl⟩ | hbefore
      · exact Nat.le_add_right _ _
      · exact ih.2 j k time hbefore

/-- A function that has yet to run was started when its timer was due, or before the timer was armed again. -/
theorem Reach.started_le (ht : T.Reach slack C t) {i : Nat} {k : κ} {time : Nat} (h : t.started i k = some time) :
    time ≤ t.armed k + t.delay k + slack.late ∧ time ≤ t.now := by
  induction ht generalizing i time with
  | init => cases h
  | wait _ now hle _ ih => exact ⟨(ih h).1, Nat.le_trans (ih h).2 hle⟩
  | @step t ht j a s' l' _ hx _ ih =>
    have htime : time ≤ t.armed k + t.delay k + slack.late ∧ time ≤ t.now := by
      rcases after_started_eq_some h with ⟨-, hf, rfl⟩ | hbefore
      · exact ⟨ht.punctual.1 k (T.pending_of_fires hx hf), Nat.le_refl _⟩
      · exact ih hbefore
    refine ⟨?_, htime.2⟩
    by_cases harms : (T.arms k t.pool.shared (t.pool.thread j) a).isSome = true
    · rw [after_armed_of_arms harms]
      omega
    · rw [(after_armed_of_not_arms harms).1, (after_armed_of_not_arms harms).2]
      exact htime.1

/-- **Deadlines.** A timer that is pending, or whose function has yet to run, is not overdue. -/
theorem Reach.not_overdue (ht : T.Reach slack C t) {k : κ}
    (h : T.pending k t.pool.shared = true ∨ ∃ i, (t.started i k).isSome = true) :
    t.now ≤ t.armed k + t.delay k + slack.late + slack.run := by
  rcases h with h | ⟨i, h⟩
  · exact Nat.le_trans (ht.punctual.1 k h) (Nat.le_add_right _ _)
  · obtain ⟨time, htime⟩ := Option.isSome_iff_exists.1 h
    have hrun := ht.punctual.2 i k time htime
    have hstart := (ht.started_le htime).1
    omega

/-- A timer that is armed only by the function of another is armed within the time of that one. -/
theorem Reach.armed_by {k m : κ}
    (hby : ∀ {t i a}, T.Reach slack C t → (T.arms m t.pool.shared (t.pool.thread i) a).isSome = true →
      (t.started i k).isSome = true)
    (ht : T.Reach slack C t) : t.armed m ≤ t.armed k + t.delay k + slack.late + slack.run := by
  induction ht with
  | init => exact Nat.zero_le _
  | wait _ _ _ _ ih => exact ih
  | @step t ht i a s' l' _ _ _ ih =>
    have harmed : (T.after t i a s' l').armed m ≤ t.armed k + t.delay k + slack.late + slack.run := by
      by_cases h' : (T.arms m t.pool.shared (t.pool.thread i) a).isSome = true
      · rw [after_armed_of_arms h']
        exact ht.not_overdue (.inr ⟨i, hby ht h'⟩)
      · rw [(after_armed_of_not_arms h').1]
        exact ih
    have hnow : (T.after t i a s' l').armed m ≤ t.now := (ht.step i a s' l' ‹_› ‹_› ‹_›).armed_le m
    by_cases h : (T.arms k t.pool.shared (t.pool.thread i) a).isSome = true
    · rw [after_armed_of_arms h]
      omega
    · rw [(after_armed_of_not_arms h).1, (after_armed_of_not_arms h).2]
      exact harmed

/-- If arming one timer stops another, then as long as the other is pending it was armed last. -/
theorem Reach.armed_le_of_pending {k m : κ}
    (hstops : ∀ {t i a s' l'}, T.Reach slack C t → P.exec t.pool.shared (t.pool.thread i) a = some (s', l') →
      (T.arms k t.pool.shared (t.pool.thread i) a).isSome = true → T.pending m s' = false)
    (ht : T.Reach slack C t) (h : T.pending m t.pool.shared = true) : t.armed k ≤ t.armed m := by
  induction ht with
  | init hinit => exact absurd (h.symm.trans (T.pending_init hinit)) (by decide)
  | wait _ _ _ _ ih => exact ih h
  | @step t ht i a s' l' _ hx _ ih =>
    have hnot : ¬ (T.arms k t.pool.shared (t.pool.thread i) a).isSome = true := fun harms =>
      absurd (h.symm.trans (hstops ht hx harms)) (by decide)
    rw [(after_armed_of_not_arms hnot).1]
    by_cases h' : (T.arms m t.pool.shared (t.pool.thread i) a).isSome = true
    · rw [after_armed_of_arms h']
      exact ht.armed_le k
    · rw [(after_armed_of_not_arms h').1]
      exact ih ((T.pending_of_exec hx h).resolve_left h')

/-- A pending timer has a delay that it was armed with. -/
theorem Reach.delay_of_pending {k : κ} {Q : Nat → Prop}
    (harms : ∀ {t i a d}, T.Reach slack C t → T.arms k t.pool.shared (t.pool.thread i) a = some d → Q d)
    (ht : T.Reach slack C t) (h : T.pending k t.pool.shared = true) : Q (t.delay k) := by
  induction ht with
  | init hinit => exact absurd (h.symm.trans (T.pending_init hinit)) (by decide)
  | wait _ _ _ _ ih => exact ih h
  | @step t ht i a s' l' _ hx _ ih =>
    cases hd : T.arms k t.pool.shared (t.pool.thread i) a with
    | some d =>
      have hdelay : (T.after t i a s' l').delay k = d := by simp [after, hd]
      rw [hdelay]
      exact harms ht hd
    | none =>
      have hnot : ¬ (T.arms k t.pool.shared (t.pool.thread i) a).isSome = true := by simp [hd]
      rw [(after_armed_of_not_arms hnot).2]
      exact ih ((T.pending_of_exec hx h).resolve_left hnot)

theorem Reach.delay_le {k : κ} {d : Nat}
    (harms : ∀ {t i a d'}, T.Reach slack C t → T.arms k t.pool.shared (t.pool.thread i) a = some d' → d' ≤ d)
    (ht : T.Reach slack C t) : t.delay k ≤ d := by
  induction ht with
  | init => exact Nat.zero_le _
  | wait _ _ _ _ ih => exact ih
  | @step t ht i a s' l' _ _ _ ih =>
    show (T.arms k t.pool.shared (t.pool.thread i) a).getD (t.delay k) ≤ d
    cases hd : T.arms k t.pool.shared (t.pool.thread i) a with
    | some d' => exact harms ht hd
    | none => exact ih

/-- **Silence.** If arming `k` ends `m`, then whenever `m` is due, `k` has not been armed for the delay of `m`. -/
theorem Reach.silence {k m : κ} {d : Nat}
    (hstops : ∀ {t i a s' l'}, T.Reach slack C t → P.exec t.pool.shared (t.pool.thread i) a = some (s', l') →
      (T.arms k t.pool.shared (t.pool.thread i) a).isSome = true → T.pending m s' = false)
    (harms : ∀ {t i a d'}, T.Reach slack C t → T.arms m t.pool.shared (t.pool.thread i) a = some d' → d ≤ d')
    (ht : T.Reach slack C t) (h : T.pending m t.pool.shared = true) (hdue : t.armed m + t.delay m ≤ t.now) :
    t.armed k + d ≤ t.now := by
  have hlast := ht.armed_le_of_pending hstops h
  have hdelay := ht.delay_of_pending (Q := fun d' => d ≤ d') harms h
  omega

/-! ## Who runs a function -/

/-- A goroutine that is at the function of a timer has started it, if nothing else leads there. -/
theorem Reach.started_of_serves {k : κ} (hidle : T.serves k P.idle = false)
    (hserves : ∀ {s l a s' l'}, C s l a → P.exec s l a = some (s', l') → T.serves k l' = true →
      T.fires k s a = true ∨ T.serves k l = true)
    (ht : T.Reach slack C t) {i : Nat} (h : T.serves k (t.pool.thread i) = true) :
    (t.started i k).isSome = true := by
  induction ht generalizing i with
  | init => exact absurd (h.symm.trans hidle) (by decide)
  | wait _ _ _ _ ih => exact ih h
  | @step t ht j a s' l' hC hx hdue ih =>
    by_cases hij : i = j
    · subst hij
      have hl' : T.serves k l' = true := by simpa [after] using h
      rw [after_started_self, if_pos hl']
      split
      · rfl
      · next hf => exact ih ((hserves hC hx hl').resolve_left hf)
    · rw [after_started_of_ne t hij]
      refine ih ?_
      simpa [after, hij] using h

/-- Whoever has started a function is at it. -/
theorem Reach.serves_of_started (ht : T.Reach slack C t) {i : Nat} {k : κ} (h : (t.started i k).isSome = true) :
    T.serves k (t.pool.thread i) = true := by
  induction ht generalizing i with
  | init => cases h
  | wait _ _ _ _ ih => exact ih h
  | @step t ht j a s' l' _ hx _ ih =>
    by_cases hij : i = j
    · subst hij
      show T.serves k (Function.update t.pool.thread i l' i) = true
      rw [Function.update_self]
      rw [after_started_self] at h
      split at h
      · next hf => exact T.serves_of_fires hx hf
      · split at h
        · assumption
        · cases h
    · rw [after_started_of_ne t hij] at h
      show T.serves k (Function.update t.pool.thread j l' i) = true
      rw [Function.update_of_ne hij]
      exact ih h

/-- **Ownership in time.** `H` is a flag, and `O` says of a goroutine, by where it is and what it has started, that it
    has claimed the flag. If no section raises the flag without claiming it, and none gives up a claim without lowering
    the flag, then a raised flag has an owner. -/
theorem Reach.owner {H : Timed σ ℓ κ → Prop} {O : (κ → Option Nat) → ℓ → Prop}
    (hinit : ∀ s, P.init s → ¬ H ⟨⟨s, fun _ => P.idle⟩, 0, fun _ => 0, fun _ => 0, fun _ _ => none⟩)
    (hwait : ∀ {t : Timed σ ℓ κ} {now}, H { t with now } → H t)
    (hstep : ∀ {t : Timed σ ℓ κ} {i a s' l'}, T.Reach slack C t → C t.pool.shared (t.pool.thread i) a →
      P.exec t.pool.shared (t.pool.thread i) a = some (s', l') → H (T.after t i a s' l') →
      O ((T.after t i a s' l').started i) l' ∨ H t ∧ ¬ O (t.started i) (t.pool.thread i))
    (ht : T.Reach slack C t) (h : H t) : ∃ i, O (t.started i) (t.pool.thread i) := by
  induction ht with
  | init hs => exact absurd h (hinit _ hs)
  | wait _ _ _ _ ih => exact ih (hwait h)
  | @step t ht i a s' l' hC hx _ ih =>
    rcases hstep ht hC hx h with hO | ⟨hold, hnot⟩
    · refine ⟨i, ?_⟩
      rwa [show (T.after t i a s' l').pool.thread i = l' from Function.update_self ..]
    · obtain ⟨j, hj⟩ := ih hold
      have hji : j ≠ i := by
        rintro rfl
        exact hnot hj
      refine ⟨j, ?_⟩
      rwa [after_started_of_ne t hji,
        show (T.after t i a s' l').pool.thread j = t.pool.thread j from Function.update_of_ne hji ..]

/-- A flag of the memory that is raised by starting the function of `k`, and that stays with whoever runs it. -/
theorem Reach.served {k : κ} {H : σ → Prop} {O : ℓ → Prop} (hinit : ∀ s, P.init s → ¬ H s)
    (hstep : ∀ {t : Timed σ ℓ κ} {i a s' l'}, T.Reach slack C t → C t.pool.shared (t.pool.thread i) a →
      P.exec t.pool.shared (t.pool.thread i) a = some (s', l') → H s' →
      T.fires k t.pool.shared a = true ∨ O l' ∨
        H t.pool.shared ∧ ¬ O (t.pool.thread i) ∧ (T.serves k (t.pool.thread i) = true → T.serves k l' = true))
    (ht : T.Reach slack C t) (h : H t.pool.shared) :
    ∃ i, (t.started i k).isSome = true ∨ O (t.pool.thread i) := by
  refine ht.owner (H := fun t => H t.pool.shared) (O := fun started l => (started k).isSome = true ∨ O l) hinit id ?_ h
  intro t i a s' l' ht hC hx hH
  rw [after_started_self]
  rcases hstep ht hC hx hH with hf | hO | ⟨hold, hnot, hstays⟩
  · rw [if_pos hf]
    exact .inl (.inl rfl)
  · exact .inl (.inr hO)
  · by_cases hstarted : (t.started i k).isSome = true
    · rw [if_pos (hstays (ht.serves_of_started hstarted))]
      split
      · exact .inl (.inl rfl)
      · exact .inl (.inl hstarted)
    · exact .inr ⟨hold, not_or.2 ⟨hstarted, hnot⟩⟩

end Timers

end Concurrency
