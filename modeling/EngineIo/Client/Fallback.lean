import EngineIo.Client.Goroutine
import Mathlib.Data.List.Perm.Basic

set_option autoImplicit false

/-! # Falling back to the next transport (`Open`, `onError` and `beginRetry` in `socket.go`)

`Open` opens the transport that `selectTransport` chooses, the first one of the list or a remembered one.
When it fails while the socket is opening, `beginRetry` drops the first one of the list and opens again. The
two agree on the transport unless the remembered one is another than the first: then the first transport is
dropped without having been tried, and the remembered one, which is still in the list, is tried again. -/

namespace EngineIo.Client

open Concurrency (Pool Program)

/-- A transport that was opened and failed, and the transport dropped from the list for it. -/
structure Attempt where
  tried : TransportType
  dropped : Option TransportType
deriving DecidableEq, Repr

/-- One `Open` in which every transport is constructed and reports an error while the socket is opening. The
    transports are numbered from `made` on. -/
def fallback : Nat → Nat → Socket → Option (List Attempt × Socket)
  | 0, _, _ => none
  | fuel + 1, made, s =>
    match s.beginOpen with
    | none => some ([], s)
    | some s =>
      match s.selectTransport with
      | none => some ([], s.failOpen)
      | some type =>
        match (s.installTransport ⟨made, type⟩).beginRetry with
        | (s', true) =>
          (fallback fuel (made + 1) s').map fun (attempts, s'') =>
            ({ tried := type, dropped := s.transports.head? } :: attempts, s'')
        | (s', false) =>
          some ([{ tried := type, dropped := none }],
            (s'.beginTeardown.map Prod.fst).getD s')

/-! ## The attempts -/

/-- The remembered transport is configured, and is not the first one. -/
def Socket.Overtakes (s : Socket) : Prop :=
  s.rememberUpgrade = true ∧
    ∃ t ∈ s.priorUpgrade, t ∈ s.transports ∧ s.transports.head? ≠ some t

theorem Socket.selectTransport_eq {s : Socket} {t : TransportType} {ts : List TransportType}
    (hts : s.transports = t :: ts) :
    ∃ type ∈ s.transports, s.selectTransport = some type ∧ (type = t ↔ ¬ s.Overtakes) := by
  unfold selectTransport Overtakes
  cases hprior : s.priorUpgrade with
  | none => exact ⟨t, by simp [hts], by simp [hts], by simp⟩
  | some p =>
    simp only [hts, Option.mem_def, Option.some.injEq, exists_eq_left', List.head?_cons, ne_eq]
    by_cases hremember : (s.rememberUpgrade && (t :: ts).contains p) = true
    · obtain ⟨hr, hp⟩ : s.rememberUpgrade = true ∧ p ∈ t :: ts := by simpa using hremember
      refine ⟨p, hp, by simp only [hremember, if_true], ?_⟩
      simp [hr, hp, eq_comm]
    · refine ⟨t, by simp, by rw [if_neg hremember], ?_⟩
      simp only [true_iff, not_and, not_not]
      intro hr hp
      exact absurd (by simp [hr, hp]) hremember

/-- A round opens the chosen transport, and its error decides whether there is another one. -/
theorem fallback_round {s : Socket} {fuel made : Nat} {type : TransportType}
    (hclosed : s.state = .closed) (htype : s.selectTransport = some type) :
    fallback (fuel + 1) made s =
      match (Socket.installTransport ⟨made, type⟩
        { s with state := .opening, upgrading := false, writeBuffer := [] }).beginRetry with
      | (s', true) =>
        (fallback fuel (made + 1) s').map fun (attempts, s'') =>
          ({ tried := type, dropped := s.transports.head? } :: attempts, s'')
      | (s', false) =>
        some ([{ tried := type, dropped := none }], (s'.beginTeardown.map Prod.fst).getD s') := by
  have hopen : s.beginOpen = some { s with state := .opening, upgrading := false, writeBuffer := [] } :=
    Socket.beginOpen_eq_some.2 ⟨hclosed, rfl⟩
  have hselect : Socket.selectTransport
      { s with state := .opening, upgrading := false, writeBuffer := [] } = some type := htype
  simp only [fallback, hopen, hselect]

/-- A round that is not the last: the head of the list is dropped and the rest is tried. -/
theorem fallback_retries {s : Socket} {fuel made : Nat} {t t' type : TransportType}
    {ts : List TransportType} (hclosed : s.state = .closed) (htry : s.tryAllTransports = true)
    (hts : s.transports = t :: t' :: ts) (htype : s.selectTransport = some type) :
    ∃ s', s'.state = .closed ∧ s'.tryAllTransports = true ∧ s'.transports = t' :: ts ∧
      s'.priorUpgrade = none ∧
      fallback (fuel + 1) made s = (fallback fuel (made + 1) s').map fun (attempts, s'') =>
        ({ tried := type, dropped := some t } :: attempts, s'') := by
  refine ⟨{ s with
    state := .closed, upgrading := false, writeBuffer := [], priorUpgrade := none
    transports := t' :: ts, transport := none }, rfl, htry, rfl, rfl, ?_⟩
  have hretries : Socket.retries
      (Socket.installTransport ⟨made, type⟩
        { s with state := .opening, upgrading := false, writeBuffer := [] }) = true := by
    simp [Socket.retries, Socket.installTransport, htry, hts]
  rw [fallback_round hclosed htype]
  simp only [Socket.beginRetry, hretries, if_true]
  simp [Socket.installTransport, hts]

/-- The last round: the socket closes. -/
theorem fallback_ends {s : Socket} {fuel made : Nat} {t type : TransportType}
    (hclosed : s.state = .closed) (hts : s.transports = [t]) (htype : s.selectTransport = some type) :
    ∃ s', s'.state = .closed ∧
      fallback (fuel + 1) made s = some ([{ tried := type, dropped := none }], s') := by
  have hretries : Socket.retries
      (Socket.installTransport ⟨made, type⟩
        { s with state := .opening, upgrading := false, writeBuffer := [] }) = false := by
    simp [Socket.retries, Socket.installTransport, hts]
  refine ⟨_, ?_, by rw [fallback_round hclosed htype]; simp only [Socket.beginRetry, hretries]; rfl⟩
  rfl

/-- The attempts, when `type` is chosen first from a list that begins with `t`. -/
def rounds (type t : TransportType) : List TransportType → List Attempt
  | [] => [{ tried := type, dropped := none }]
  | t' :: ts => { tried := type, dropped := some t } :: rounds t' t' ts

theorem rounds_tried (type t : TransportType) (ts : List TransportType) :
    (rounds type t ts).map Attempt.tried = type :: ts := by
  induction ts generalizing type t with
  | nil => rfl
  | cons t' ts ih => rw [rounds, List.map_cons, ih]

theorem rounds_dropped (t : TransportType) (ts : List TransportType) :
    ∀ a ∈ rounds t t ts, ∀ d ∈ a.dropped, d = a.tried := by
  induction ts generalizing t with
  | nil => simp [rounds]
  | cons t' ts ih =>
    rw [rounds, List.forall_mem_cons]
    exact ⟨fun d hd => (Option.some.inj hd).symm, ih t'⟩

theorem fallback_eq {s : Socket} {t type : TransportType} {ts : List TransportType} {fuel : Nat}
    (made : Nat) (hclosed : s.state = .closed) (htry : s.tryAllTransports = true)
    (hts : s.transports = t :: ts) (htype : s.selectTransport = some type) (hfuel : ts.length < fuel) :
    ∃ s', fallback fuel made s = some (rounds type t ts, s') ∧ s'.state = .closed := by
  induction ts generalizing s t type made fuel with
  | nil =>
    obtain ⟨fuel, rfl⟩ := Nat.exists_eq_succ_of_ne_zero (Nat.ne_of_gt hfuel)
    obtain ⟨s', hstate, hfall⟩ := fallback_ends hclosed hts htype
    exact ⟨s', hfall, hstate⟩
  | cons t' ts ih =>
    obtain ⟨fuel, rfl⟩ := Nat.exists_eq_succ_of_ne_zero (Nat.ne_zero_of_lt hfuel)
    obtain ⟨s', hstate, htry', hts', hprior, hfall⟩ := fallback_retries hclosed htry hts htype
    have htype' : s'.selectTransport = some t' := by simp [Socket.selectTransport, hts', hprior]
    obtain ⟨s'', hrest, hstate'⟩ :=
      ih (made + 1) hstate htry' hts' htype' (Nat.lt_of_succ_lt_succ hfuel)
    refine ⟨s'', ?_, hstate'⟩
    rw [hfall, hrest]
    rfl

/-! ## The goroutine that runs them -/

/-- The transport that a section installs. -/
def Pc.installs : Pc → List TransportType
  | .opening (.installTransport t) => [t.type]
  | _ => []

/-- A goroutine runs some sections alone, which install the transports `types` one after another. -/
inductive Solo : World → Goroutine → List TransportType → World → Goroutine → Prop
  | refl {w : World} {g : Goroutine} : Solo w g [] w g
  | step {w w' w'' : World} {g g' g'' : Goroutine} {a : Choice} {types types' : List TransportType}
      (h : exec w g a = some (w', g')) (htypes : types' = g.pc.installs ++ types)
      (hrest : Solo w' g' types w'' g'') : Solo w g types' w'' g''

/-- What a goroutine can do alone happens in some run of any pool. -/
theorem Solo.reachable {w w' : World} {g g' : Goroutine} {types : List TransportType}
    (h : Solo w g types w' g') {c : Pool World Goroutine} {i : Nat}
    (hc : program.Reachable c) (hw : c.shared = w) (hg : c.thread i = g) :
    ∃ c', program.Reachable c' ∧ c'.shared = w' ∧ c'.thread i = g' := by
  induction h generalizing c with
  | refl => exact ⟨c, hc, hw, hg⟩
  | step h _ _ ih =>
    subst hw hg
    exact ih (.step hc trivial (Program.step_of_exec h)) rfl (Function.update_self ..)

/-- The memory behind a claim of `beginOpen` that left the socket as `s`. -/
def World.claimed (w : World) (call : Nat) (s : Socket) : World :=
  { w with sock := s, conn := w.conn + 1, call, resets := w.resets + 1 }

theorem exec_beginOpen {w : World} {o : Origin} {call : Nat} {s : Socket}
    (hpanicked : w.panicked = false) (hopen : w.sock.beginOpen = some s) :
    exec w ⟨o, .opening (.beginOpen call)⟩ .go =
      some (w.claimed call s, ⟨o.claim (w.conn + 1), .opening .createTransport⟩) := by
  simp [exec, hpanicked, execOpen, hopen, World.claimed]

/-- The memory behind the construction and the installation of a transport. -/
def World.installing (w : World) (type : TransportType) : World :=
  { w with
    sock := w.sock.installTransport ⟨w.made, type⟩
    made := w.made + 1
    installed := some ⟨w.made, type⟩ }

/-- `Open` up to the error of the transport it opened, which leaves the goroutine at `beginRetry`. -/
theorem solo_attempt {w w' : World} {o : Origin} {call : Nat} {s : Socket} {type : TransportType}
    {types : List TransportType} {g' : Goroutine} (hpanicked : w.panicked = false)
    (hopen : w.sock.beginOpen = some s) (htype : s.selectTransport = some type)
    (hrest : Solo ((w.claimed call s).installing type)
      ⟨.callback (w.conn + 1), .teardown .beginRetry⟩ types w' g') :
    Solo w ⟨o, .opening (.beginOpen call)⟩ (type :: types) w' g' := by
  have hcreate : exec (w.claimed call s) ⟨o.claim (w.conn + 1), .opening .createTransport⟩
      (.create true) = some ({ w.claimed call s with made := w.made + 1 },
        ⟨o.claim (w.conn + 1), .opening (.installTransport ⟨w.made, type⟩)⟩) := by
    simp [exec, hpanicked, execOpen, htype, World.claimed]
  have hinstall : exec { w.claimed call s with made := w.made + 1 }
      ⟨o.claim (w.conn + 1), .opening (.installTransport ⟨w.made, type⟩)⟩ .go =
        some ((w.claimed call s).installing type, .idle) := by
    simp [exec, hpanicked, execOpen, World.claimed, World.installing]
  have herror : exec ((w.claimed call s).installing type) .idle (.call (.onError (w.conn + 1))) =
      some ((w.claimed call s).installing type,
        ⟨.callback (w.conn + 1), .teardown .beginRetry⟩) := by
    simp [exec, hpanicked, Goroutine.idle, startCall, World.claimed, World.installing]
  exact .step (exec_beginOpen hpanicked hopen) rfl (.step hcreate rfl (.step hinstall rfl
    (.step herror rfl hrest)))

/-- `onClose`, from its first section on. -/
theorem solo_teardown {w : World} (hpanicked : w.panicked = false) (o : Origin) :
    ∃ w', Solo w ⟨o, .teardown .beginTeardown⟩ [] w' .idle ∧
      w'.sock = (w.sock.beginTeardown.map Prod.fst).getD w.sock := by
  cases hdown : w.sock.beginTeardown with
  | none =>
    have hbegin : exec w ⟨o, .teardown .beginTeardown⟩ .go = some (w, .idle) := by
      simp [exec, hpanicked, execTeardown, hdown]
    exact ⟨w, .step hbegin rfl .refl, rfl⟩
  | some r =>
    have hbegin : exec w ⟨o, .teardown .beginTeardown⟩ .go =
        some ({ w with sock := r.1, resets := w.resets + 1 },
          ⟨o, .teardown (.closeHandler w.call)⟩) := by
      simp [exec, hpanicked, execTeardown, hdown]
    have hhandler : exec { w with sock := r.1, resets := w.resets + 1 }
        ⟨o, .teardown (.closeHandler w.call)⟩ .go =
          some ({ w with
            sock := r.1, resets := w.resets + 1, closeRuns := w.call :: w.closeRuns }, .idle) := by
      simp [exec, hpanicked, execTeardown]
    exact ⟨_, .step hbegin rfl (.step hhandler rfl .refl), rfl⟩

/-- `Open` without any transport. -/
theorem solo_failOpen {w : World} {call : Nat} {s : Socket} (hpanicked : w.panicked = false)
    (hopen : w.sock.beginOpen = some s) (htype : s.selectTransport = none) (o : Origin) :
    ∃ w', Solo w ⟨o, .opening (.beginOpen call)⟩ [] w' .idle ∧ w'.sock = s.failOpen := by
  have hcreate : exec (w.claimed call s) ⟨o.claim (w.conn + 1), .opening .createTransport⟩
      (.create true) = some (w.claimed call s, ⟨o.claim (w.conn + 1), .opening .failOpen⟩) := by
    simp [exec, hpanicked, execOpen, htype, World.claimed]
  have hfail : exec (w.claimed call s) ⟨o.claim (w.conn + 1), .opening .failOpen⟩ .go =
      some ({ w.claimed call s with sock := s.failOpen }, .idle) := by
    simp [exec, hpanicked, execOpen, World.claimed]
  exact ⟨_, .step (exec_beginOpen hpanicked hopen) rfl (.step hcreate rfl (.step hfail rfl .refl)),
    rfl⟩

/-- The sections of `fallback` are those of a goroutine that calls `Open`. -/
theorem fallback_solo {fuel : Nat} {w : World} {call : Nat} {attempts : List Attempt} {s' : Socket}
    (hpanicked : w.panicked = false) (h : fallback fuel w.made w.sock = some (attempts, s'))
    (o : Origin) :
    ∃ w', Solo w ⟨o, .opening (.beginOpen call)⟩ (attempts.map Attempt.tried) w' .idle ∧
      w'.sock = s' := by
  induction fuel generalizing w o call attempts with
  | zero => cases h
  | succ fuel ih =>
    rw [fallback] at h
    cases hopen : w.sock.beginOpen with
    | none =>
      simp only [hopen] at h
      cases h
      have hrefused : exec w ⟨o, .opening (.beginOpen call)⟩ .go = some (w, .idle) := by
        simp [exec, hpanicked, execOpen, hopen]
      exact ⟨w, .step hrefused rfl .refl, rfl⟩
    | some s =>
      simp only [hopen] at h
      cases htype : s.selectTransport with
      | none =>
        simp only [htype] at h
        cases h
        exact solo_failOpen hpanicked hopen htype o
      | some type =>
        simp only [htype] at h
        cases hretry : (s.installTransport ⟨w.made, type⟩).beginRetry with
        | mk s₁ retry =>
          cases retry with
          | true =>
            simp only [hretry, Option.map_eq_some_iff] at h
            obtain ⟨⟨attempts', s''⟩, hfall, heq⟩ := h
            cases heq
            have hbegin : exec ((w.claimed call s).installing type)
                ⟨.callback (w.conn + 1), .teardown .beginRetry⟩ .go =
                  some ({ (w.claimed call s).installing type with
                      sock := s₁, resets := w.resets + 1 + 1 },
                    ⟨.callback (w.conn + 1), .opening (.beginOpen call)⟩) := by
              simp [exec, hpanicked, execTeardown, hretry, World.claimed, World.installing]
            obtain ⟨w', hsolo, hsock⟩ := ih (w := { (w.claimed call s).installing type with
              sock := s₁, resets := w.resets + 1 + 1 }) hpanicked hfall (.callback (w.conn + 1))
            exact ⟨w', solo_attempt hpanicked hopen htype (.step hbegin rfl hsolo), hsock⟩
          | false =>
            simp only [hretry] at h
            cases h
            have hbegin : exec ((w.claimed call s).installing type)
                ⟨.callback (w.conn + 1), .teardown .beginRetry⟩ .go =
                  some ({ (w.claimed call s).installing type with sock := s₁ },
                    ⟨.callback (w.conn + 1), .teardown .beginTeardown⟩) := by
              simp [exec, hpanicked, execTeardown, hretry, World.claimed, World.installing]
            obtain ⟨w', hsolo, hsock⟩ := solo_teardown
              (w := { (w.claimed call s).installing type with sock := s₁ }) hpanicked
              (.callback (w.conn + 1))
            exact ⟨w', solo_attempt hpanicked hopen htype (.step hbegin rfl hsolo), hsock⟩

/-- **Fallback.** An `Open` whose every transport fails ends with the socket closed, after a run of one
    goroutine. It has tried every configured transport exactly once, and dropped the one that failed each
    time, if and only if no transport but the first one is remembered. -/
theorem fallback_tries_each_iff (s : Socket) (fuel made : Nat) (hclosed : s.state = .closed)
    (htry : s.tryAllTransports = true) (hnodup : s.transports.Nodup)
    (hfuel : s.transports.length < fuel) :
    ∃ attempts s', fallback fuel made s = some (attempts, s') ∧ s'.state = .closed ∧
      ((attempts.map Attempt.tried).Perm s.transports ∧
          (∀ a ∈ attempts, ∀ d ∈ a.dropped, d = a.tried) ↔ ¬ s.Overtakes) ∧
      ∀ (c : Pool World Goroutine) (i call : Nat), program.Reachable c →
        c.thread i = ⟨.user, .opening (.beginOpen call)⟩ → c.shared.sock = s →
        c.shared.made = made → c.shared.panicked = false →
        ∃ c', program.Reachable c' ∧ c'.shared.sock = s' ∧
          Solo c.shared (c.thread i) (attempts.map Attempt.tried) c'.shared (c'.thread i) := by
  have hsolo : ∀ {attempts s'}, fallback fuel made s = some (attempts, s') →
      ∀ (c : Pool World Goroutine) (i call : Nat), program.Reachable c →
        c.thread i = ⟨.user, .opening (.beginOpen call)⟩ → c.shared.sock = s →
        c.shared.made = made → c.shared.panicked = false →
        ∃ c', program.Reachable c' ∧ c'.shared.sock = s' ∧
          Solo c.shared (c.thread i) (attempts.map Attempt.tried) c'.shared (c'.thread i) := by
    rintro attempts s' hfall c i call hc hi rfl rfl hpanicked
    obtain ⟨w', hsolo, hsock⟩ := fallback_solo hpanicked hfall .user
    obtain ⟨c', hc', rfl, hi'⟩ := hsolo.reachable hc rfl hi
    exact ⟨c', hc', hsock, by rwa [hi, hi']⟩
  cases hts : s.transports with
  | nil =>
    obtain ⟨fuel, rfl⟩ := Nat.exists_eq_succ_of_ne_zero (Nat.ne_zero_of_lt hfuel)
    have hfall : fallback (fuel + 1) made s =
        some ([], { s with state := .closed, upgrading := false, writeBuffer := [] }) := by
      have hopen := Socket.beginOpen_eq_some.2 ⟨hclosed, rfl⟩
      simp [fallback, hopen, Socket.selectTransport, hts, Socket.failOpen]
    refine ⟨[], _, hfall, rfl, ?_, hsolo hfall⟩
    simp [Socket.Overtakes, hts]
  | cons t ts =>
    obtain ⟨type, hmem, htype, hiff⟩ := Socket.selectTransport_eq hts
    have hlt : ts.length < fuel := by
      rw [hts, List.length_cons] at hfuel
      omega
    obtain ⟨s', hfall, hstate⟩ := fallback_eq made hclosed htry hts htype hlt
    refine ⟨_, s', hfall, hstate, ?_, hsolo hfall⟩
    rw [← hiff, rounds_tried]
    constructor
    · rintro ⟨hperm, -⟩
      -- a second attempt of `type` would make it occur twice
      by_contra hne
      have hin : type ∈ ts := (List.mem_cons.1 (hts ▸ hmem)).resolve_left hne
      have hnodup' := hperm.nodup_iff.2 (hts ▸ hnodup)
      exact (List.nodup_cons.1 hnodup').1 hin
    · rintro rfl
      exact ⟨List.Perm.refl _, rounds_dropped type ts⟩

/-- Polling first and a websocket behind it, and nothing remembered. -/
theorem fallback_tries_both :
    ∃ attempts s', fallback 3 0 { tryAllTransports := true } = some (attempts, s') ∧
      s'.state = .closed ∧
      ((attempts.map Attempt.tried).Perm [.polling, .websocket] ∧
        (∀ a ∈ attempts, ∀ d ∈ a.dropped, d = a.tried) ↔
          ¬ Socket.Overtakes { tryAllTransports := true }) := by
  obtain ⟨attempts, s', hfall, hstate, hiff, -⟩ :=
    fallback_tries_each_iff { tryAllTransports := true } 3 0 rfl rfl (by decide) (by decide)
  exact ⟨attempts, s', hfall, hstate, hiff⟩

/-- With a remembered websocket, polling is dropped without having been tried, and the websocket is tried
    twice. -/
theorem remembered_transport_overtakes :
    ∃ s', fallback 3 0
        { tryAllTransports := true, rememberUpgrade := true, priorUpgrade := some .websocket } =
      some ([{ tried := .websocket, dropped := some .polling },
        { tried := .websocket, dropped := none }], s') ∧ s'.state = .closed :=
  ⟨_, rfl, rfl⟩

end EngineIo.Client
