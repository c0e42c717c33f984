import EngineIo.Server.Registry

set_option autoImplicit false

/-! # Closing the server (`Server.Close` in `server.go`)

`Close` takes a snapshot of the session store and calls `closeWithReason` for one session of it after the other.
Meanwhile sessions come and go, and any of them may be torn down by somebody else, in which case
`closeWithReason` returns at once, and before the teardown is over. -/

namespace EngineIo.Server.Shutdown

open Concurrency

/-! ## Model -/

inductive Pc
  | other (pc : Registry.Pc)
  /-- In `Close`: the sessions of the snapshot that are to come, and the call it is in. -/
  | closing (snapshot rest : List Nat) (pc : Registry.Pc)
  /-- `Close` has returned. -/
  | returned (snapshot : List Nat)
deriving DecidableEq, Repr

inductive Choice
  | run (a : Registry.Choice)
  /-- A call of `Close`, with what `sessionStore.all` returns. -/
  | all (order : List Nat)
  | next
deriving DecidableEq, Repr

/-- `sessionStore.all`: the sessions in the store, in any order. -/
def Lists (s : Registry.State) (order : List Nat) : Prop :=
  order.Nodup ∧ (∀ k ∈ order, k < s.made) ∧
    ∀ k < s.made, k ∈ order ↔ s.sessions (s.session k).id = some k

instance (s : Registry.State) (order : List Nat) : Decidable (Lists s order) :=
  inferInstanceAs (Decidable (_ ∧ _ ∧ _))

/-- `closeWithReason("forced close", nil)` of a session. -/
def closePc (k : Nat) : Registry.Pc := .session k (.teardown (.beginTeardown .forcedClose .done))

/-- A call that has returned. -/
def settle : Registry.Pc → Registry.Pc
  | .session _ .idle => .idle
  | pc => pc

def exec (s : Registry.State) : Pc → Choice → Option (Registry.State × Pc)
  | .other pc, .run a => (Registry.exec s pc a).map fun r => (r.1, .other r.2)
  | .other .idle, .all order => if Lists s order then some (s, .closing order order .idle) else none
  | .closing snapshot rest pc, .run a =>
    if pc = .idle then none
    else (Registry.exec s pc a).map fun r => (r.1, .closing snapshot rest (settle r.2))
  | .closing snapshot (k :: rest) .idle, .next => some (s, .closing snapshot rest (closePc k))
  | .closing snapshot [] .idle, .next => some (s, .returned snapshot)
  | _, _ => none

/-- Any number of goroutines on a new server, any of which may call `Close`. -/
def program : Program Registry.State Pc Choice where
  init s := s = {}
  idle := .other .idle
  exec := exec

/-- Where a goroutine is, apart from `Close`. -/
def Pc.base : Pc → Registry.Pc
  | .other pc | .closing _ _ pc => pc
  | .returned _ => .idle

variable {s s' : Registry.State} {l l' : Pc} {a : Choice} {k : Nat}

/-- What a section can do. -/
inductive Step (s : Registry.State) : Pc → Choice → Registry.State → Pc → Prop
  | other {pc pc' : Registry.Pc} {b : Registry.Choice} {s' : Registry.State}
      (hx : Registry.exec s pc b = some (s', pc')) : Step s (.other pc) (.run b) s' (.other pc')
  | run {snapshot rest : List Nat} {pc pc' : Registry.Pc} {b : Registry.Choice} {s' : Registry.State}
      (hpc : pc ≠ .idle) (hx : Registry.exec s pc b = some (s', pc')) :
      Step s (.closing snapshot rest pc) (.run b) s' (.closing snapshot rest (settle pc'))
  | all {order : List Nat} (h : Lists s order) : Step s (.other .idle) (.all order) s (.closing order order .idle)
  | next (snapshot rest : List Nat) (k : Nat) :
      Step s (.closing snapshot (k :: rest) .idle) .next s (.closing snapshot rest (closePc k))
  | done (snapshot : List Nat) : Step s (.closing snapshot [] .idle) .next s (.returned snapshot)

theorem exec_step (h : exec s l a = some (s', l')) : Step s l a s' l' := by
  revert h
  fun_cases exec s l a <;> intro h
  case case1 pc b =>
    obtain ⟨⟨s₁, pc'⟩, hx, heq⟩ := Option.map_eq_some_iff.1 h
    cases heq
    exact .other hx
  case case2 order hlists =>
    cases h
    exact .all hlists
  case case5 snapshot rest pc b hpc =>
    obtain ⟨⟨s₁, pc'⟩, hx, heq⟩ := Option.map_eq_some_iff.1 h
    cases heq
    exact .run hpc hx
  case case6 snapshot k rest =>
    cases h
    exact .next snapshot rest k
  case case7 snapshot =>
    cases h
    exact .done snapshot
  all_goals cases h

/-! ## One session -/

/-- A goroutine that has claimed the teardown of session `k` and has yet to call the close handler. -/
def tearsDown (k : Nat) : Registry.Pc → Bool
  | .session j pc => j = k && decide (pc.phase ≠ .outside)
  | .delete j _ => j = k
  | _ => false

/-- What a section of the registry does to session `k`. -/
structure Effect (k : Nat) (pc pc' : Registry.Pc) (x x' : Registry.Session) : Prop where
  stored : x.stored = true → x'.stored = true
  closed : x.closed = true → x'.closed = true
  ending : x'.closed = true → x'.world.closeReasons = [] →
    (x.closed = true ∧ x.world.closeReasons = []) ∧ tearsDown k pc = false ∨ tearsDown k pc' = true

theorem Effect.quiet {pc pc' : Registry.Pc} {x x' : Registry.Session} (hends : tearsDown k pc = false)
    (hstored : x.stored = true → x'.stored = true) (hclosed : x'.closed = x.closed)
    (hreports : x'.world.closeReasons = x.world.closeReasons) : Effect k pc pc' x x' :=
  ⟨hstored, hclosed ▸ id, fun hc hr => .inl ⟨⟨hclosed ▸ hc, hreports ▸ hr⟩, hends⟩⟩

theorem Effect.of_close {pc pc' : Server.Pc} {x : Registry.Session} {w : World}
    (h : CloseStep x.world pc w pc') :
    Effect k (.session k pc) (Registry.resume k pc') x { x with world := w } := by
  have hresume (hphase : pc'.phase ≠ .outside) : tearsDown k (Registry.resume k pc') = true := by
    unfold Registry.resume
    split <;> simp [tearsDown, hphase]
  refine ⟨id, fun hc => ?_, fun hc hr => ?_⟩
  · simpa [Registry.Session.closed] using h.closed (by simpa [Registry.Session.closed] using hc)
  · have hc : w.sock.state = .closed := by simpa [Registry.Session.closed] using hc
    have hr : w.closeReasons = [] := hr
    cases h with
    | live hpc _ hclosed _ hreports =>
      refine .inl ⟨⟨by simpa [Registry.Session.closed] using hclosed.1 hc, hreports ▸ hr⟩, ?_⟩
      simp [tearsDown, hpc]
    | claim _ hpc' => exact .inr (hresume (by simp [hpc']))
    | release _ hpc' =>
      refine .inr (hresume ?_)
      rcases hpc' with hpc' | hpc' <;> simp [hpc']
    | report reason _ _ _ hreports =>
      rw [hr] at hreports
      exact absurd hreports.symm (by simp)

theorem closed_open (w : ServerSocket) : w.open.state = .closed ↔ w.state = .closed := by
  rcases w.open_cases with ⟨hopening, hopen⟩ | hsame
  · simp [hopen, hopening]
  · rw [hsame]

/-- A handshake neither closes a session nor reports that it is closed. -/
theorem execHandshake_effect {j : Nat} {stage : Registry.Stage} {pc' : Registry.Pc} {b : Registry.Choice}
    (h : Registry.execHandshake s j stage b = some (s', pc')) :
    Effect k (.handshake j stage) pc' (s.session k) (s'.session k) := by
  have hclose (w : World) (t : Transport) :
      (w.closeTransport t).sock = w.sock ∧ (w.closeTransport t).closeReasons = w.closeReasons := by
    obtain ⟨polling, closed, inbox, stopped, heq⟩ := w.closeTransport_releases t
    rw [heq]
    exact ⟨rfl, rfl⟩
  revert h
  fun_cases Registry.execHandshake s j stage b <;> intro h <;> cases h
  all_goals
    by_cases hj : k = j
    · subst hj
      refine .quiet rfl ?_ ?_ ?_ <;>
        simp [Registry.State.set, Registry.State.put, Registry.State.delete, Registry.Session.closed, hclose,
          closed_open]
    · refine .quiet rfl ?_ ?_ ?_ <;>
        simp [Registry.State.set, Registry.State.put, Registry.State.delete, hj]

theorem exec_effect {pc pc' : Registry.Pc} {b : Registry.Choice} (h : Registry.exec s pc b = some (s', pc'))
    (hk : k < s.made) (hpc : pc.Holds s) : Effect k pc pc' (s.session k) (s'.session k) := by
  revert h
  fun_cases Registry.exec s pc b <;> intro h
  case case1 id type =>
    cases h
    refine .quiet rfl ?_ ?_ ?_ <;> simp [Registry.State.set, hk.ne]
  case case2 j hstored =>
    cases h
    exact .quiet rfl id rfl rfl
  case case4 j stage => exact execHandshake_effect h
  case case7 j pc a hopen w pc' hx =>
    cases h
    by_cases hj : k = j
    · subst hj
      have heffect := Effect.of_close (k := k) (exec_close hx)
      simpa [Registry.State.set] using heffect
    · refine .quiet ?_ ?_ ?_ ?_ <;> simp [Registry.State.set, tearsDown, hj, Ne.symm hj]
  case case8 j pc =>
    cases h
    by_cases hj : k = j
    · subst hj
      obtain ⟨-, -, -, -, hphase⟩ := hpc k rfl
      refine ⟨?_, ?_, fun _ _ => .inr ?_⟩ <;>
        simp [Registry.State.set, Registry.State.delete, Registry.Session.closed, tearsDown, hphase]
    · refine .quiet ?_ ?_ ?_ ?_ <;>
        simp [Registry.State.set, Registry.State.delete, tearsDown, hj, Ne.symm hj]
  all_goals cases h

/-- Whatever `closeWithReason` finds, the session is closed after its first section. -/
theorem exec_closePc {pc' : Registry.Pc} {b : Registry.Choice}
    (h : Registry.exec s (closePc k) b = some (s', pc')) : (s'.session k).closed = true := by
  generalize hpc : closePc k = pc at h
  revert h
  fun_cases Registry.exec s pc b <;> intro h
  case case7 j pc a _ w pc' hx =>
    cases h
    cases hpc
    have hclosed : w.sock.state = .closed := by
      cases a with
      | go =>
        simp only [Server.exec, execTeardown] at hx
        split at hx
        · next hnone =>
          cases hx
          by_contra hlive
          simp [ServerSocket.beginTeardown, hlive] at hnone
        · next hs =>
          cases hx
          obtain ⟨-, rfl, -⟩ := ServerSocket.beginTeardown_eq_some.1 hs
          rfl
      | _ => cases hx
    simp [Registry.State.set, Registry.Session.closed, hclosed]
  all_goals first
    | (cases h; done)
    | cases hpc

/-- A session is not made closed. -/
theorem made_of_closed {pc pc' : Registry.Pc} {b : Registry.Choice}
    (h : Registry.exec s pc b = some (s', pc')) (hk : k < s'.made) (hclosed : (s'.session k).closed = true) :
    k < s.made := by
  revert h
  fun_cases Registry.exec s pc b <;> intro h
  case case1 id type =>
    cases h
    have hle : k < s.made + 1 := hk
    by_contra hnew
    obtain rfl : k = s.made := by omega
    simp [Registry.State.set, Registry.Session.closed] at hclosed
  case case4 j stage =>
    revert h
    fun_cases Registry.execHandshake s j stage b <;> intro h <;> cases h <;> exact hk
  all_goals
    cases h
    try exact hk

/-! ## `Close` -/

/-- What `Close` has done so far: every session of the snapshot is to come, is closed, or is being closed. -/
def Pc.Promises (s : Registry.State) : Pc → Prop
  | .other _ => True
  | .closing snapshot rest pc => (∀ k ∈ rest, k ∈ snapshot) ∧ ∀ k ∈ snapshot,
      (s.session k).stored = true ∧ (k ∈ rest ∨ (s.session k).closed = true ∨ pc = closePc k)
  | .returned snapshot => ∀ k ∈ snapshot, (s.session k).stored = true ∧ (s.session k).closed = true

theorem Pc.Promises.frame {m : Pc} (hm : m.Promises s)
    (hstored : ∀ k, (s.session k).stored = true → (s'.session k).stored = true ∧
      ((s.session k).closed = true → (s'.session k).closed = true)) : m.Promises s' := by
  cases m with
  | other pc => trivial
  | closing snapshot rest pc =>
    refine ⟨hm.1, fun k hk => ?_⟩
    obtain ⟨hs, hcases⟩ := hm.2 k hk
    exact ⟨(hstored k hs).1, hcases.imp_right (Or.imp_left (hstored k hs).2)⟩
  | returned snapshot =>
    intro k hk
    obtain ⟨hs, hclosed⟩ := hm k hk
    exact ⟨(hstored k hs).1, (hstored k hs).2 hclosed⟩

theorem settle_holds {pc : Registry.Pc} (h : pc.Holds s) : (settle pc).Holds s := by
  unfold settle
  split
  · exact fun k hk => (by cases hk)
  · exact h

theorem settle_apart {pc m : Registry.Pc} (h : pc.Apart m) : (settle pc).Apart m := by
  unfold settle
  split
  · exact ⟨fun k hk => (by cases hk), fun k hk => (by cases hk)⟩
  · exact h

theorem settle_tearsDown (pc : Registry.Pc) : tearsDown k (settle pc) = tearsDown k pc := by
  unfold settle
  split
  · simp [tearsDown, Server.Pc.phase]
  · rfl

theorem reach_outline {c : Pool Registry.State Pc} (hc : program.Reachable c) :
    c.shared.Sound ∧ (∀ i, (c.thread i).base.Holds c.shared ∧ (c.thread i).Promises c.shared) ∧
      ∀ i j, i ≠ j → (c.thread i).base.Apart (c.thread j).base := by
  refine hc.outline (I := Registry.State.Sound) (J := fun s l => l.base.Holds s ∧ l.Promises s)
    (K := fun l m => l.base.Apart m.base) (fun _ _ h => h.symm) ?_ ?_ ?_
  · exact ⟨fun k hk => (by cases hk), fun k hk => (by cases hk)⟩
  · rintro s rfl
    exact ⟨Registry.sound_init, fun k hk => (by cases hk), trivial⟩
  · intro s l a s' l' _ hI ⟨hholds, hpromises⟩ hexec
    -- a section of the registry, by whomever
    have hsection {pc pc' : Registry.Pc} {b : Registry.Choice} (hx : Registry.exec s pc b = some (s', pc'))
        (hpc : pc.Holds s) :
        s'.Sound ∧ pc'.Holds s' ∧
          (∀ m : Pc, m.base.Holds s ∧ m.Promises s → pc.Apart m.base →
            (m.base.Holds s' ∧ m.Promises s') ∧ pc'.Apart m.base) ∧
          ∀ k, (s.session k).stored = true → (s'.session k).stored = true ∧
            ((s.session k).closed = true → (s'.session k).closed = true) := by
      have hkeeps := Registry.exec_keeps hx hI hpc
      have hstays (k : Nat) (hs : (s.session k).stored = true) : (s'.session k).stored = true ∧
          ((s.session k).closed = true → (s'.session k).closed = true) := by
        have heffect := exec_effect hx (hI.made_of_stored hs) hpc
        exact ⟨heffect.stored hs, heffect.closed⟩
      refine ⟨hkeeps.sound, hkeeps.holds, fun m hm hapart => ?_, hstays⟩
      obtain ⟨hholds', hapart'⟩ := hkeeps.bystander m.base hm.1 hapart
      exact ⟨⟨hholds', hm.2.frame hstays⟩, hapart'⟩
    cases exec_step hexec with
    | other hx =>
      obtain ⟨hsound, hholds', hothers, -⟩ := hsection hx hholds
      exact ⟨hsound, ⟨hholds', trivial⟩, hothers⟩
    | run hpc hx =>
      obtain ⟨hsound, hholds', hothers, hstays⟩ := hsection hx hholds
      refine ⟨hsound, ⟨settle_holds hholds', hpromises.1, fun k hk => ?_⟩, fun m hm hapart => ?_⟩
      · obtain ⟨hs, hrest | hclosed | rfl⟩ := hpromises.2 k hk
        · exact ⟨(hstays k hs).1, .inl hrest⟩
        · exact ⟨(hstays k hs).1, .inr (.inl ((hstays k hs).2 hclosed))⟩
        · exact ⟨(hstays k hs).1, .inr (.inl (exec_closePc hx))⟩
      · exact ⟨(hothers m hm hapart).1, settle_apart (hothers m hm hapart).2⟩
    | all hlists =>
      refine ⟨hI, ⟨fun k hk => (by cases hk), fun _ hk => hk, fun k hk => ⟨?_, .inl hk⟩⟩,
        fun m hm hapart => ⟨hm, hapart⟩⟩
      have hentry := (hlists.2.2 k (hlists.2.1 k hk)).1 hk
      exact (hI.entry _ k hentry).2.1
    | next snapshot rest j =>
      obtain ⟨hsubset, hcases⟩ := hpromises
      have hstored := (hcases j (hsubset j List.mem_cons_self)).1
      refine ⟨hI, ⟨fun k hk => ?_, fun k hk => hsubset k (List.mem_cons_of_mem _ hk), fun k hk => ?_⟩,
        fun m hm _ => ⟨hm, Registry.Pc.apart_of_none rfl rfl _⟩⟩
      · cases hk
        exact ⟨hI.made_of_stored hstored, hstored, fun h => (by cases h), fun h => (by cases h)⟩
      · obtain ⟨hs, hrest | hclosed | hpc⟩ := hcases k hk
        · rcases List.mem_cons.1 hrest with rfl | hrest
          · exact ⟨hs, .inr (.inr rfl)⟩
          · exact ⟨hs, .inl hrest⟩
        · exact ⟨hs, .inr (.inl hclosed)⟩
        · cases hpc
    | done snapshot =>
      refine ⟨hI, ⟨fun k hk => (by cases hk), fun k hk => ?_⟩, fun m hm hapart => ⟨hm, hapart⟩⟩
      obtain ⟨hs, hrest | hclosed | hpc⟩ := hpromises.2 k hk
      · cases hrest
      · exact ⟨hs, hclosed⟩
      · cases hpc

/-- A closed session whose handler has not been called is being torn down. -/
theorem closed_torn {c : Pool Registry.State Pc} (hc : program.Reachable c) (hk : k < c.shared.made)
    (hclosed : (c.shared.session k).closed = true) (hreports : (c.shared.session k).world.closeReasons = []) :
    ∃ i, tearsDown k (c.thread i).base = true := by
  refine hc.owner (O := fun l => tearsDown k l.base = true) (H := fun s => k < s.made ∧
    (s.session k).closed = true ∧ (s.session k).world.closeReasons = []) ?_ ?_ ⟨hk, hclosed, hreports⟩
  · rintro s rfl ⟨h, -⟩
    cases h
  · intro c i a s' l' hc _ hexec ⟨hk', hclosed', hreports'⟩
    have hholds := ((reach_outline hc).2.1 i).1
    have hsection {pc pc' : Registry.Pc} {b : Registry.Choice}
        (hx : Registry.exec c.shared pc b = some (s', pc')) (hpc : pc.Holds c.shared) :
        (k < c.shared.made ∧ (c.shared.session k).closed = true ∧
          (c.shared.session k).world.closeReasons = []) ∧ ¬ tearsDown k pc = true ∨ tearsDown k pc' = true := by
      have hk := made_of_closed hx hk' hclosed'
      refine ((exec_effect hx hk hpc).ending hclosed' hreports').imp_left fun ⟨hold, hnot⟩ => ?_
      exact ⟨⟨hk, hold⟩, by simp [hnot]⟩
    generalize c.thread i = l at hexec hholds ⊢
    cases exec_step hexec with
    | other hx => exact hsection hx hholds
    | run _ hx => simpa [Pc.base, settle_tearsDown] using hsection hx hholds
    | all => exact Program.owner_same ⟨hk', hclosed', hreports'⟩
    | next => exact .inl ⟨⟨hk', hclosed', hreports'⟩, by simp [Pc.base, tearsDown]⟩
    | done => exact Program.owner_same ⟨hk', hclosed', hreports'⟩

/-- **Closing the server.** In every run in which sessions are made, used and torn down while any number of
    goroutines call `Close`, the snapshot `Close` works from is what `Sockets` returns at that moment. When
    `Close` has returned, every session of the snapshot is closed, and stays so; its close handler has been
    called and the store no longer has it, unless another goroutine claimed the teardown first and is
    still in it. -/
theorem close_ends_sessions (c : Pool Registry.State Pc) (hc : program.Reachable c) :
    (∀ i order c', program.step c i (.all order) = some c' → ∀ k, k ∈ order ↔ c.shared.sockets k) ∧
    ∀ i snapshot, c.thread i = .returned snapshot → ∀ k ∈ snapshot,
      (c.shared.session k).closed = true ∧
      ((c.shared.session k).world.closeReasons ≠ [] ∧ ¬ c.shared.sockets k ∨
        ∃ j, j ≠ i ∧ tearsDown k (c.thread j).base = true) := by
  obtain ⟨hI, hJ, -⟩ := reach_outline hc
  refine ⟨fun i order c' hstep k => ?_, fun i snapshot hi k hk => ?_⟩
  · obtain ⟨s', l', hexec, -⟩ := Program.step_eq_some hstep
    obtain ⟨-, hmade, hlists⟩ : Lists c.shared order := by
      generalize c.thread i = l at hexec
      cases exec_step hexec with
      | all hlists => exact hlists
    constructor
    · exact fun hk => ⟨_, (hlists k (hmade k hk)).1 hk⟩
    · rintro ⟨id, hid⟩
      obtain ⟨rfl, hs, -⟩ := hI.entry id k hid
      exact (hlists k (hI.made_of_stored hs)).2 hid
  · have hpromises := (hJ i).2
    rw [hi] at hpromises
    obtain ⟨hs, hclosed⟩ := hpromises k hk
    refine ⟨hclosed, ?_⟩
    by_cases hreports : (c.shared.session k).world.closeReasons = []
    · obtain ⟨j, hj⟩ := closed_torn hc (hI.made_of_stored hs) hclosed hreports
      refine .inr ⟨j, ?_, hj⟩
      rintro rfl
      rw [hi] at hj
      cases hj
    · exact .inl ⟨hreports, hI.gone hreports⟩

/-- Two sessions; goroutine 2 has claimed the teardown of the second and gets no further while goroutine 3 runs
    the whole of `Close`. -/
def overlapping : List (Nat × Choice) :=
  (Registry.handshakeBy 0 "a" ++ Registry.handshakeBy 1 "b" ++ Registry.claimBy 2 1).map (Prod.map id .run) ++
  [(3, .all [1, 0]), (3, .next), (3, .run (.session .go)), (3, .next)] ++
  ((3, Registry.Choice.session .go) :: Registry.takeOutBy 3).map (Prod.map id .run) ++
  [(3, .run (.session .go)), (3, .next)]

theorem close_ends_sessions_overlapping :
    ∃ c, program.Reachable c ∧ c.thread 3 = .returned [1, 0] ∧
      (c.shared.session 0).world.closeReasons = [.forcedClose] ∧ (c.shared.session 0).closed = true ∧
      (c.shared.session 1).closed = true ∧ (∃ j, j ≠ 3 ∧ tearsDown 1 (c.thread j).base = true) := by
  have hrun : ∃ c, program.run ⟨{}, fun _ => .other .idle⟩ overlapping = some c ∧
      c.thread 3 = .returned [1, 0] ∧ (c.shared.session 0).world.closeReasons = [.forcedClose] ∧
      (c.shared.session 1).world.closeReasons = [] := ⟨_, rfl, rfl, rfl, rfl⟩
  obtain ⟨c, hrun, hreturned, hfirst, hsecond⟩ := hrun
  have hc : program.Reachable c := Program.Reachable.run (.init rfl) hrun
  have hends := (close_ends_sessions c hc).2 3 _ hreturned
  refine ⟨c, hc, hreturned, hfirst, (hends 0 (by decide)).1, (hends 1 (by decide)).1, ?_⟩
  rcases (hends 1 (by decide)).2 with ⟨hreported, -⟩ | htorn
  · exact absurd hsecond hreported
  · exact htorn

end EngineIo.Server.Shutdown
