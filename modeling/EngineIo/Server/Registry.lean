import EngineIo.Server.Closing

set_option autoImplicit false

/-! # The registry and the live sessions (`server_session_store.go`, `server.go`)

The session store maps ids to sessions. A handshake puts its session under a new id, and takes it out again
when the open packet cannot be written; a teardown takes its session out once it has closed the transports.
Both take out by id: `delete(s.id)` removes whatever is stored under the id by then.

A session is closed from the first section of its teardown on, and its entry goes in a later one. So an
`id` of a closed session may still have a delete to come, and whoever reuses it in between loses the entry
to it. The registry agrees with the sessions as long as an id is reused only when the handshake and the
teardown of its earlier sessions are through with it. -/

namespace EngineIo.Server.Registry

open Concurrency

/-! ## Model -/

/-- A session with its id. The flags are ghost. -/
structure Session where
  id : String
  type : TransportType
  world : World
  /-- It has been put into the store. -/
  stored : Bool := false
  /-- Its handshake may still put it, take it out or open it. -/
  handshaking : Bool := true
  /-- Its handshake has taken it out. -/
  failed : Bool := false
  /-- Its teardown has taken it out. -/
  released : Bool := false

/-- The server: every session ever made, by number, and the session store. -/
structure State where
  made : Nat := 0
  session : Nat → Session :=
    fun _ => { id := "", type := .polling, world := { sock := { transport := none } } }
  sessions : String → Option Nat := fun _ => none

/-- `sessionStore.put`. -/
def State.put (s : State) (k : Nat) : State :=
  { s with sessions := Function.update s.sessions (s.session k).id (some k) }

/-- `sessionStore.delete`. -/
def State.delete (s : State) (id : String) : State :=
  { s with sessions := Function.update s.sessions id none }

/-- `Server.Socket`. -/
def State.socket (s : State) (id : String) : Option Nat := s.sessions id

/-- Whether a session is among those `Server.Sockets` returns. -/
def State.sockets (s : State) (k : Nat) : Prop := ∃ id, s.sessions id = some k

/-- Change a session. -/
def State.set (s : State) (k : Nat) (x : Session) : State :=
  { s with session := Function.update s.session k x }

/-- Where a handshake is. -/
inductive Stage
  | buildOpenPacket
  | put
  | write
  | delete
  | close
  | open
deriving DecidableEq, Repr

inductive Pc
  | idle
  | handshake (k : Nat) (stage : Stage)
  /-- It has session `k`. -/
  | session (k : Nat) (pc : Server.Pc)
  /-- In the teardown of session `k`, before the close handler. -/
  | delete (k : Nat) (pc : Server.Pc)
deriving DecidableEq, Repr

inductive Choice
  | go
  /-- A handshake on a transport of this type, for which `generateID` returned `id`. -/
  | handshake (id : String) (type : TransportType)
  /-- The connection was accepted and the open packet built, or not. -/
  | built (ok : Bool)
  /-- The open packet was written, or not. -/
  | written (ok : Bool)
  /-- Come by a session: from the store, from a timer or as a read loop. -/
  | obtain (k : Nat)
  | session (a : Server.Choice)
deriving DecidableEq, Repr

/-- The three handshakes, which do the same with the store. -/
def execHandshake (s : State) (k : Nat) : Stage → Choice → Option (State × Pc)
  | .buildOpenPacket, .built true => some (s, .handshake k .put)
  | .buildOpenPacket, .built false =>
    some (s.set k { s.session k with handshaking := false }, .idle)
  | .put, .go =>
    some ((s.put k).set k { s.session k with stored := true }, .handshake k .write)
  | .write, .written ok => some (s, .handshake k (if ok then .open else .delete))
  | .delete, .go =>
    some ((s.delete (s.session k).id).set k { s.session k with handshaking := false, failed := true },
      if (s.session k).type = .polling then .idle else .handshake k .close)
  | .close, .go =>
    some (s.set k { s.session k with
      world := (s.session k).world.closeTransport ⟨0, (s.session k).type⟩ }, .idle)
  | .open, .go =>
    some (s.set k { s.session k with
      handshaking := false
      world := { (s.session k).world with sock := (s.session k).world.sock.open } },
      .session k .idle)
  | _, _ => none

/-- Where a goroutine of a session goes on: the store comes before the close handler. -/
def resume (k : Nat) (pc : Server.Pc) : Pc :=
  if pc.phase = .reporting then .delete k pc else .session k pc

def exec (s : State) : Pc → Choice → Option (State × Pc)
  | .idle, .handshake id type =>
    some ({ s with made := s.made + 1 }.set s.made
      { id, type, world := { sock := { transport := some ⟨0, type⟩ } } },
      .handshake s.made .buildOpenPacket)
  | .idle, .obtain k => if (s.session k).stored then some (s, .session k .idle) else none
  | .handshake k stage, a => execHandshake s k stage a
  | .session k pc, .session a =>
    -- `open` is for the handshake to call
    if pc = .open then none
    else
      match Server.exec (s.session k).world pc a with
      | none => none
      | some (w, pc') => some (s.set k { s.session k with world := w }, resume k pc')
  | .delete k pc, .go =>
    some ((s.delete (s.session k).id).set k { s.session k with released := true }, .session k pc)
  | _, _ => none

/-- Any number of goroutines on a new server. -/
def program : Program State Pc Choice where
  init s := s = {}
  idle := .idle
  exec := exec

/-! ## Reusing ids -/

/-- The session is closed. -/
def Session.closed (x : Session) : Bool := x.world.sock.state = .closed

/-- Nothing happens to the store on behalf of the session any more: it was never stored, or its handshake and
    its teardown have done all they do with the store. -/
def Session.done (x : Session) : Bool := !x.handshaking && (!x.stored || x.released)

/-- `generateID` returns no id of an earlier session but of those that meet `p`. -/
def reuses (p : Session → Bool) (s : State) (a : Choice) : Bool :=
  match a with
  | .handshake id _ => (List.range s.made).all fun k => (s.session k).id ≠ id || p (s.session k)
  | _ => true

/-! ## The sessions -/

/-- What the flags of a session mean. -/
structure Session.Sound (x : Session) : Prop where
  failed : x.failed = true → x.handshaking = false
  released : x.released = true → x.stored = true ∧ x.closed = true
  isOpen : x.world.sock.state = .open →
    x.stored = true ∧ x.handshaking = false ∧ x.failed = false ∧ x.released = false
  reported : x.world.closeReasons ≠ [] → x.released = true

theorem Session.Sound.released_eq_false {x : Session} (hx : x.Sound)
    (h : x.stored = false ∨ x.closed = false) : x.released = false := by
  cases hr : x.released with
  | false => rfl
  | true =>
    obtain ⟨hs, hc⟩ := hx.released hr
    rcases h with h | h
    · rw [hs] at h
      cases h
    · rw [hc] at h
      cases h

theorem Session.Sound.failed_eq_false {x : Session} (hx : x.Sound) (h : x.handshaking = true) :
    x.failed = false := by
  cases hf : x.failed with
  | false => rfl
  | true =>
    rw [hx.failed hf] at h
    cases h

/-- What a goroutine knows about the session it works for. -/
def Pc.Claims (x : Session) : Pc → Prop
  | .idle | .handshake _ .close => True
  | .handshake _ .buildOpenPacket | .handshake _ .put => x.handshaking = true ∧ x.stored = false
  | .handshake _ _ => x.handshaking = true ∧ x.stored = true
  | .session _ pc =>
    x.stored = true ∧ (pc.phase = .releasing → x.closed = true ∧ x.released = false) ∧
      (pc.phase = .reporting → x.released = true)
  | .delete _ pc =>
    x.stored = true ∧ x.closed = true ∧ x.released = false ∧ pc.phase = .reporting

/-- The session a goroutine works for. -/
def Pc.handle : Pc → Option Nat
  | .idle => none
  | .handshake k _ | .session k _ | .delete k _ => some k

/-- The session whose handshake a goroutine runs. -/
def Pc.handshakes : Pc → Option Nat
  | .handshake _ .close => none
  | .handshake k _ => some k
  | _ => none

/-- The session that a goroutine has closed and has yet to take out. -/
def Pc.tears : Pc → Option Nat
  | .session k pc => if pc.phase = .releasing then some k else none
  | .delete k _ => some k
  | _ => none

/-- No two goroutines run the same handshake or the same teardown. -/
def Pc.Apart (l m : Pc) : Prop :=
  (∀ k, l.handshakes = some k → m.handshakes ≠ some k) ∧ ∀ k, l.tears = some k → m.tears ≠ some k

theorem Pc.Apart.symm {l m : Pc} (h : l.Apart m) : m.Apart l :=
  ⟨fun k hm hl => h.1 k hl hm, fun k hm hl => h.2 k hl hm⟩

/-! ## The store -/

/-- The store holds sessions that have not been taken out, under their ids. -/
structure State.Sound (s : State) : Prop where
  sound : ∀ k, (s.session k).Sound
  unmade : ∀ k, s.made ≤ k → (s.session k).stored = false
  entry : ∀ id k, s.sessions id = some k →
    (s.session k).id = id ∧ (s.session k).stored = true ∧ (s.session k).released = false

/-- The store holds every stored session that has not been taken out; and of two sessions with one id, the earlier
    is done. -/
structure State.Complete (s : State) : Prop where
  live : ∀ k, (s.session k).stored = true → (s.session k).failed = false →
    (s.session k).released = false → s.sessions (s.session k).id = some k
  earlier : ∀ j k, j < k → k < s.made → (s.session j).id = (s.session k).id →
    (s.session j).done = true

variable {s : State}

theorem State.Sound.made_of_stored (h : s.Sound) {k : Nat} (hk : (s.session k).stored = true) :
    k < s.made := by
  by_contra hle
  rw [h.unmade k (Nat.le_of_not_lt hle)] at hk
  cases hk

theorem Session.not_done_of_stored {x : Session} (hs : x.stored = true) (hr : x.released = false) :
    x.done = false := by
  simp [Session.done, hs, hr]

theorem Session.not_done_of_handshaking {x : Session} (h : x.handshaking = true) :
    x.done = false := by
  simp [Session.done, h]

/-- A change of one session and of the store. -/
theorem State.Sound.change (h : s.Sound) {k : Nat} {x : Session} {sessions : String → Option Nat}
    (hk : k < s.made) (hx : x.Sound)
    (hentry : ∀ id j, sessions id = some j →
      j = k ∧ x.id = id ∧ x.stored = true ∧ x.released = false ∨ j ≠ k ∧ s.sessions id = some j) :
    ({ s with sessions }.set k x).Sound where
  sound j := by
    by_cases hj : j = k
    · subst hj
      simpa [State.set] using hx
    · simpa [State.set, hj] using h.sound j
  unmade j hj := by
    have hjk : j ≠ k := by
      rintro rfl
      exact absurd hk (Nat.not_lt.2 hj)
    simpa [State.set, hjk] using h.unmade j hj
  entry id j hj := by
    rcases hentry id j hj with ⟨rfl, hx⟩ | ⟨hne, hold⟩
    · simpa [State.set] using hx
    · simpa [State.set, hne] using h.entry id j hold

/-- A change that leaves the store alone. -/
theorem State.Sound.update (h : s.Sound) {k : Nat} {x : Session} (hk : k < s.made)
    (hid : x.id = (s.session k).id) (hstored : x.stored = (s.session k).stored)
    (hreleased : x.released = (s.session k).released) (hx : x.Sound) : (s.set k x).Sound := by
  refine h.change hk hx fun id j hj => ?_
  obtain ⟨hidj, hs, hr⟩ := h.entry id j hj
  by_cases hjk : j = k
  · subst hjk
    exact .inl ⟨rfl, hid.trans hidj, hstored.trans hs, hreleased.trans hr⟩
  · exact .inr ⟨hjk, hj⟩

theorem State.Sound.put (h : s.Sound) {k : Nat} {x : Session} (hk : k < s.made)
    (hid : x.id = (s.session k).id) (hs : x.stored = true) (hr : x.released = false) (hx : x.Sound) :
    ((s.put k).set k x).Sound := by
  refine h.change hk hx fun id j hj => ?_
  by_cases hsame : id = (s.session k).id
  · subst hsame
    rw [Function.update_self] at hj
    exact .inl ⟨(Option.some.inj hj).symm, hid, hs, hr⟩
  · rw [Function.update_of_ne hsame] at hj
    refine .inr ⟨?_, hj⟩
    rintro rfl
    exact hsame (h.entry id j hj).1.symm

/-- `delete` takes out a session, and with it whatever else has its id. -/
theorem State.Sound.delete (h : s.Sound) {k : Nat} {x : Session} (hk : k < s.made) (hx : x.Sound) :
    ((s.delete (s.session k).id).set k x).Sound := by
  refine h.change hk hx fun id j hj => ?_
  have hne : id ≠ (s.session k).id := by
    rintro rfl
    rw [Function.update_self] at hj
    cases hj
  rw [Function.update_of_ne hne] at hj
  refine .inr ⟨?_, hj⟩
  rintro rfl
  exact hne (h.entry id j hj).1.symm

theorem State.Sound.make (h : s.Sound) {x : Session} (hx : x.Sound) :
    ({ s with made := s.made + 1 }.set s.made x).Sound where
  sound k := by
    by_cases hk : k = s.made
    · subst hk
      simpa [State.set] using hx
    · simpa [State.set, hk] using h.sound k
  unmade k hk := by
    have hne : k ≠ s.made := by
      have hk' : s.made + 1 ≤ k := hk
      omega
    have hle : s.made ≤ k := Nat.le_of_succ_le hk
    simpa [State.set, hne] using h.unmade k hle
  entry id k hk := by
    have hentry := h.entry id k hk
    have hne : k ≠ s.made := (h.made_of_stored hentry.2.1).ne
    simpa [State.set, hne] using hentry

/-! ## The outline -/

def Pc.Holds (s : State) (pc : Pc) : Prop :=
  ∀ k, pc.handle = some k → k < s.made ∧ pc.Claims (s.session k)

/-- A section keeps the assertions: those of the memory, those of the goroutine that runs it, and those of
    every bystander. -/
structure Keeps (s : State) (l : Pc) (s' : State) (l' : Pc) : Prop where
  sound : s'.Sound
  holds : l'.Holds s'
  bystander : ∀ m : Pc, m.Holds s → l.Apart m → m.Holds s' ∧ l'.Apart m

theorem Pc.Apart.mono {l l' m : Pc} (h : l.Apart m)
    (hh : ∀ k, l'.handshakes = some k → l.handshakes = some k)
    (ht : ∀ k, l'.tears = some k → l.tears = some k) : l'.Apart m :=
  ⟨fun k hk => h.1 k (hh k hk), fun k hk => h.2 k (ht k hk)⟩

/-- A goroutine that runs neither is apart from every other. -/
theorem Pc.apart_of_none {l : Pc} (hh : l.handshakes = none) (ht : l.tears = none) (m : Pc) : l.Apart m := by
  refine ⟨fun k hk => ?_, fun k hk => ?_⟩
  · rw [hh] at hk
    cases hk
  · rw [ht] at hk
    cases hk

theorem Pc.handle_of_handshakes {pc : Pc} {k : Nat} (h : pc.handshakes = some k) :
    pc.handle = some k := by
  unfold Pc.handshakes at h
  split at h
  · cases h
  · exact h
  · cases h

/-- Another goroutine of a session in its handshake does not run the handshake. -/
theorem Pc.Apart.handshakes_eq_none {l m : Pc} {k : Nat} (h : l.Apart m) (hl : l.handshakes = some k)
    (hm : m.handle = some k) : m.handshakes = none := by
  cases hh : m.handshakes with
  | none => rfl
  | some j =>
    obtain rfl : k = j := Option.some.inj (hm.symm.trans (Pc.handle_of_handshakes hh))
    exact absurd hh (h.1 k hl)

theorem Pc.handle_of_tears {pc : Pc} {k : Nat} (h : pc.tears = some k) : pc.handle = some k := by
  unfold Pc.tears at h
  split at h
  · split at h
    · exact h
    · cases h
  · exact h
  · cases h

/-- Whoever has yet to take a session out has found it closed. -/
theorem Pc.closed_of_tears {pc : Pc} {k : Nat} {x : Session} (h : pc.tears = some k)
    (hc : pc.Claims x) : x.closed = true ∧ x.released = false := by
  unfold Pc.tears at h
  split at h
  · split at h
    · next hphase => exact hc.2.1 hphase
    · cases h
  · exact ⟨hc.2.1, hc.2.2.1⟩
  · cases h

/-- A section on session `k`. -/
theorem Keeps.change {l l' : Pc} {k : Nat} {x : Session} {sessions : String → Option Nat}
    (hk : k < s.made) (hsound : ({ s with sessions }.set k x).Sound)
    (hhandle : ∀ j, l'.handle = some j → j = k) (hl' : l'.Claims x)
    (hothers : ∀ m : Pc, m.Claims (s.session k) → m.handle = some k → l.Apart m → m.Claims x)
    (hapart : ∀ m : Pc, m.Holds s → l.Apart m → l'.Apart m) :
    Keeps s l ({ s with sessions }.set k x) l' where
  sound := hsound
  holds := by
    intro j hj
    obtain rfl := hhandle j hj
    refine ⟨hk, ?_⟩
    simpa [State.set] using hl'
  bystander := by
    intro m hm hlm
    refine ⟨fun j hj => ?_, hapart m hm hlm⟩
    obtain ⟨hmade, hclaims⟩ := hm j hj
    refine ⟨hmade, ?_⟩
    by_cases hjk : j = k
    · subst hjk
      simpa [State.set] using hothers m hclaims hj hlm
    · simpa [State.set, hjk] using hclaims

/-- A goroutine other than those of the handshake depends on nothing a handshake changes. -/
theorem Pc.Claims.of_handshake {m : Pc} {x x' : Session} (h : m.Claims x) (hm : m.handshakes = none)
    (hs : x.stored = true → x'.stored = true) (hc : x.closed = true → x'.closed = true)
    (hr : x'.released = x.released) : m.Claims x' := by
  cases m with
  | idle => trivial
  | handshake k stage =>
    cases stage with
    | close => trivial
    | _ => cases hm
  | session k pc =>
    obtain ⟨h1, h2, h3⟩ := h
    refine ⟨hs h1, fun hphase => ⟨hc (h2 hphase).1, hr ▸ (h2 hphase).2⟩, fun hphase => hr ▸ h3 hphase⟩
  | delete k pc =>
    obtain ⟨h1, h2, h3, h4⟩ := h
    exact ⟨hs h1, hc h2, hr ▸ h3, h4⟩

/-- No goroutine depends on anything of the world but whether the session is closed. -/
theorem Pc.Claims.of_world {m : Pc} {x : Session} {w : World} (h : m.Claims x)
    (hc : x.closed = true → Session.closed { x with world := w } = true) :
    m.Claims { x with world := w } := by
  cases m with
  | idle => trivial
  | handshake k stage => cases stage <;> exact h
  | session k pc => exact ⟨h.1, fun hphase => ⟨hc (h.2.1 hphase).1, (h.2.1 hphase).2⟩, h.2.2⟩
  | delete k pc => exact ⟨h.1, hc h.2.1, h.2.2⟩

theorem Keeps.same {l l' : Pc} (hI : s.Sound) (hl' : l'.Holds s)
    (hapart : ∀ m : Pc, l.Apart m → l'.Apart m) : Keeps s l s l' :=
  ⟨hI, hl', fun m hm hlm => ⟨hm, hapart m hlm⟩⟩

theorem Session.Sound.set_world {x : Session} {w : World} (hx : x.Sound)
    (hclosed : x.world.sock.state = .closed → w.sock.state = .closed)
    (hopen : w.sock.state = .open → x.world.sock.state = .open)
    (hreports : w.closeReasons ≠ [] → x.released = true) : Session.Sound { x with world := w } where
  failed := hx.failed
  released hr := by
    obtain ⟨hs, hc⟩ := hx.released hr
    exact ⟨hs, by simpa [Session.closed] using hclosed (by simpa [Session.closed] using hc)⟩
  isOpen h := hx.isOpen (hopen h)
  reported := hreports

theorem ServerSocket.open_closed {s : ServerSocket} (h : s.state = .closed) :
    s.open.state = .closed := by
  rcases s.open_cases with ⟨hold, -⟩ | hsame
  · rw [h] at hold
    cases hold
  · rw [hsame]
    exact h

theorem Session.Sound.open {x : Session} (hx : x.Sound) (hs : x.stored = true)
    (hh : x.handshaking = true) :
    Session.Sound { x with
      handshaking := false, world := { x.world with sock := x.world.sock.open } } where
  failed _ := rfl
  released hr := by
    obtain ⟨hs, hc⟩ := hx.released hr
    simp only [Session.closed, decide_eq_true_eq] at hc ⊢
    exact ⟨hs, ServerSocket.open_closed hc⟩
  isOpen hopen := by
    refine ⟨hs, rfl, hx.failed_eq_false hh, hx.released_eq_false (.inr ?_)⟩
    by_contra hclosed
    have hc := ServerSocket.open_closed (by simpa [Session.closed] using hclosed)
    rw [show x.world.sock.open.state = .open from hopen] at hc
    cases hc
  reported := hx.reported

theorem execHandshake_keeps {s' : State} {k : Nat} {stage : Stage} {a : Choice} {l' : Pc}
    (h : execHandshake s k stage a = some (s', l')) (hI : s.Sound)
    (hJ : (Pc.handshake k stage).Holds s) : Keeps s (.handshake k stage) s' l' := by
  obtain ⟨hk, hclaims⟩ := hJ k rfl
  have hx := hI.sound k
  revert h
  fun_cases execHandshake s k stage a <;> intro h <;> cases h
  · refine .same hI (fun j hj => ?_) fun m hlm => hlm.mono (fun j hj => hj) (fun j hj => hj)
    cases hj
    exact ⟨hk, hclaims⟩
  · refine .change hk (hI.update hk rfl rfl rfl ?_) (fun j hj => ?_) trivial ?_ ?_
    · exact ⟨fun _ => rfl, hx.released, fun hopen => ⟨(hx.isOpen hopen).1, rfl, (hx.isOpen hopen).2.2⟩,
        hx.reported⟩
    · cases hj
    · intro m hm hmk hlm
      exact hm.of_handshake (hlm.handshakes_eq_none rfl hmk) id id rfl
    · exact fun m _ _ => Pc.apart_of_none rfl rfl m
  · obtain ⟨hh, hs⟩ := hclaims
    have hr := hx.released_eq_false (.inl hs)
    refine .change hk (hI.put hk rfl rfl hr ?_) (fun j hj => ?_) ⟨hh, rfl⟩ ?_ ?_
    · refine ⟨hx.failed, fun hr' => ?_, fun hopen => ⟨rfl, (hx.isOpen hopen).2⟩, hx.reported⟩
      exact ⟨rfl, (hx.released hr').2⟩
    · cases hj
      rfl
    · intro m hm hmk hlm
      exact hm.of_handshake (hlm.handshakes_eq_none rfl hmk) (fun _ => rfl) id rfl
    · intro m _ hlm
      exact hlm.mono (fun j hj => hj) (fun j hj => (by cases hj))
  · next ok =>
    refine .same hI (fun j hj => ?_) fun m hlm => hlm.mono (fun j hj => ?_) (fun j hj => (by cases hj))
    · cases hj
      cases ok <;> exact ⟨hk, hclaims⟩
    · cases ok <;> exact hj
  · obtain ⟨hh, hs⟩ := hclaims
    refine .change hk (hI.delete hk ?_) ?_ ?_ ?_ ?_
    · refine ⟨fun _ => rfl, hx.released, fun hopen => ?_, hx.reported⟩
      rw [(hx.isOpen hopen).2.1] at hh
      cases hh
    · intro j hj
      split at hj
      · cases hj
      · cases hj
        rfl
    · split <;> trivial
    · intro m hm hmk hlm
      exact hm.of_handshake (hlm.handshakes_eq_none rfl hmk) id id rfl
    · intro m _ _
      refine Pc.apart_of_none ?_ ?_ m <;> split <;> rfl
  · obtain ⟨polling, closed, inbox, stopped, hw⟩ :=
      (s.session k).world.closeTransport_releases ⟨0, (s.session k).type⟩
    rw [hw]
    refine .change hk (hI.update hk rfl rfl rfl (hx.set_world id id hx.reported)) ?_ trivial ?_ ?_
    · intro j hj
      cases hj
    · intro m hm _ _
      exact hm.of_world id
    · exact fun m _ _ => Pc.apart_of_none rfl rfl m
  · obtain ⟨hh, hs⟩ := hclaims
    refine .change hk (hI.update hk rfl rfl rfl (hx.open hs hh)) ?_ ?_ ?_ ?_
    · intro j hj
      cases hj
      rfl
    · exact ⟨hs, fun hphase => (by cases hphase), fun hphase => (by cases hphase)⟩
    · intro m hm hmk hlm
      refine hm.of_handshake (hlm.handshakes_eq_none rfl hmk) id (fun hc => ?_) rfl
      simp only [Session.closed, decide_eq_true_eq] at hc ⊢
      exact ServerSocket.open_closed hc
    · exact fun m _ _ => Pc.apart_of_none rfl rfl m

theorem resume_eq_session {k : Nat} {pc : Server.Pc} (h : pc.phase ≠ .reporting) :
    resume k pc = .session k pc := if_neg h

theorem resume_eq_delete {k : Nat} {pc : Server.Pc} (h : pc.phase = .reporting) :
    resume k pc = .delete k pc := if_pos h

theorem session_keeps {k : Nat} {pc pc' : Server.Pc} {w : World}
    (h : CloseStep (s.session k).world pc w pc') (hpc : pc ≠ .open) (hI : s.Sound)
    (hJ : (Pc.session k pc).Holds s) :
    Keeps s (.session k pc) (s.set k { s.session k with world := w }) (resume k pc') := by
  obtain ⟨hk, hs, hreleasing, hreporting⟩ := hJ k rfl
  have hx := hI.sound k
  cases h with
  | live hphase hphase' hclosed hopen hreports =>
    rw [resume_eq_session (by simp [hphase'])]
    refine .change hk (hI.update hk rfl rfl rfl
      (hx.set_world hclosed.2 (fun h => (hopen h).resolve_right hpc) (hreports ▸ hx.reported))) ?_ ?_ ?_ ?_
    · intro j hj
      cases hj
      rfl
    · exact ⟨hs, by simp [hphase'], by simp [hphase']⟩
    · intro m hm _ _
      exact hm.of_world (by simpa [Session.closed] using hclosed.2)
    · intro m _ hlm
      exact hlm.mono (fun j hj => hj) (fun j hj => (by simp [Pc.tears, hphase'] at hj))
  | claim hphase hphase' hlive hclosed hreports =>
    have hreleased := hx.released_eq_false (.inr (by simpa [Session.closed] using hlive))
    rw [resume_eq_session (by simp [hphase'])]
    refine .change hk (hI.update hk rfl rfl rfl
      (hx.set_world (fun _ => hclosed) (fun h => ?_) (hreports ▸ hx.reported))) ?_ ?_ ?_ ?_
    · rw [hclosed] at h
      cases h
    · intro j hj
      cases hj
      rfl
    · refine ⟨hs, fun _ => ⟨?_, hreleased⟩, by simp [hphase']⟩
      simpa [Session.closed] using hclosed
    · intro m hm _ _
      exact hm.of_world fun _ => by simpa [Session.closed] using hclosed
    · -- nobody else tears down a session that was not closed
      intro m hm hlm
      refine ⟨fun j hj => (by cases hj), fun j hj hmj => hlive ?_⟩
      obtain rfl : k = j := by simpa [Pc.tears, hphase'] using hj
      have hclaims := (hm k (Pc.handle_of_tears hmj)).2
      simpa [Session.closed] using (Pc.closed_of_tears hmj hclaims).1
  | release hphase hphase' hstate hreports =>
    obtain ⟨hclosed, hreleased⟩ := hreleasing hphase
    have hclosed' : Session.closed { s.session k with world := w } = true := by
      simpa [Session.closed, hstate] using hclosed
    refine .change hk (hI.update hk rfl rfl rfl
      (hx.set_world (hstate ▸ id) (hstate ▸ id) (hreports ▸ hx.reported))) ?_ ?_ ?_ ?_
    · intro j hj
      unfold resume at hj
      split at hj <;> exact (Option.some.inj hj).symm
    · rcases hphase' with hphase' | hphase'
      · rw [resume_eq_session (by simp [hphase'])]
        exact ⟨hs, fun _ => ⟨hclosed', hreleased⟩, by simp [hphase']⟩
      · rw [resume_eq_delete hphase']
        exact ⟨hs, hclosed', hreleased, hphase'⟩
    · intro m hm _ _
      exact hm.of_world fun _ => hclosed'
    · intro m _ hlm
      refine hlm.mono (fun j hj => ?_) (fun j hj => ?_)
      · unfold resume at hj
        split at hj <;> cases hj
      · unfold resume at hj
        split at hj
        · simpa [Pc.tears, hphase] using hj
        · have hkj : pc'.phase = .releasing ∧ k = j := by simpa [Pc.tears] using hj
          simp [Pc.tears, hphase, hkj.2]
  | report reason hphase hphase' hstate hreports =>
    have hreleased := hreporting hphase
    rw [resume_eq_session (by simp [hphase'])]
    refine .change hk (hI.update hk rfl rfl rfl
      (hx.set_world (hstate ▸ id) (hstate ▸ id) (fun _ => hreleased))) ?_ ?_ ?_ ?_
    · intro j hj
      cases hj
      rfl
    · exact ⟨hs, by simp [hphase'], by simp [hphase']⟩
    · intro m hm _ _
      exact hm.of_world (by simp [Session.closed, hstate])
    · intro m _ hlm
      exact hlm.mono (fun j hj => hj) (fun j hj => (by simp [Pc.tears, hphase'] at hj))

theorem exec_keeps {s' : State} {l l' : Pc} {a : Choice} (h : exec s l a = some (s', l')) (hI : s.Sound)
    (hJ : l.Holds s) : Keeps s l s' l' := by
  revert h
  fun_cases exec s l a <;> intro h
  · next id type =>
    cases h
    refine ⟨hI.make ?_, ?_, ?_⟩
    · refine ⟨?_, ?_, ?_, ?_⟩
      · intro h; cases h
      · intro h; cases h
      · intro h; cases h
      · intro h; exact absurd rfl h
    · intro k hk
      cases hk
      refine ⟨Nat.lt_succ_self _, ?_⟩
      simp [State.set, Pc.Claims]
    · intro m hm hlm
      refine ⟨fun k hk => ?_, fun k hk hmk => ?_, fun k hk => (by cases hk)⟩
      · obtain ⟨hmade, hclaims⟩ := hm k hk
        refine ⟨Nat.lt_succ_of_lt hmade, ?_⟩
        simpa [State.set, hmade.ne] using hclaims
      · cases hk
        exact absurd (hm _ (Pc.handle_of_handshakes hmk)).1 (Nat.lt_irrefl _)
  · next k hstored =>
    cases h
    refine .same hI (fun j hj => ?_) fun m hlm => hlm.mono (fun j hj => hj) (fun j hj => (by cases hj))
    cases hj
    exact ⟨hI.made_of_stored hstored, hstored, fun hphase => (by cases hphase),
      fun hphase => (by cases hphase)⟩
  · cases h
  · exact execHandshake_keeps h hI hJ
  · cases h
  · cases h
  · next hpc w pc' hx =>
    cases h
    exact session_keeps (exec_close hx) hpc hI hJ
  · next k pc =>
    cases h
    obtain ⟨hk, hs, hclosed, hr, hphase⟩ := hJ k rfl
    have hx := hI.sound k
    refine .change hk (hI.delete hk ?_) ?_ ?_ ?_ ?_
    · refine ⟨hx.failed, fun _ => ⟨hs, hclosed⟩, fun hopen => ?_, fun _ => rfl⟩
      rw [Session.closed, decide_eq_true_eq] at hclosed
      rw [hclosed] at hopen
      cases hopen
    · intro j hj
      cases hj
      rfl
    · exact ⟨hs, by simp [hphase], fun _ => rfl⟩
    · -- a bystander with the same teardown to finish is not apart
      intro m hm hmk hlm
      cases m with
      | idle => trivial
      | handshake j stage => cases stage <;> exact hm
      | session j pcm =>
        cases hmk
        refine ⟨hm.1, fun hphase => ?_, fun _ => rfl⟩
        exact absurd (by simp [Pc.tears, hphase]) (hlm.2 k rfl)
      | delete j pcm =>
        cases hmk
        exact absurd rfl (hlm.2 k rfl)
    · intro m _ hlm
      exact hlm.mono (fun j hj => (by cases hj)) (fun j hj => (by simp [Pc.tears, hphase] at hj))
  · cases h

theorem sound_init : ({} : State).Sound where
  sound k := ⟨fun h => (by cases h), fun h => (by cases h), fun h => (by cases h), fun h => absurd rfl h⟩
  unmade k _ := rfl
  entry id k hk := by cases hk

theorem registry_outline {C : State → Pc → Choice → Prop} {c : Pool State Pc} (hc : program.Reach C c) :
    c.shared.Sound ∧ (∀ i, (c.thread i).Holds c.shared) ∧
      ∀ i j, i ≠ j → (c.thread i).Apart (c.thread j) := by
  refine hc.outline (fun l m h => h.symm) ⟨fun k hk => (by cases hk), fun k hk => (by cases hk)⟩ ?_ ?_
  · rintro s rfl
    exact ⟨sound_init, fun k hk => (by cases hk)⟩
  · intro s l a s' l' _ hI hJ hx
    have hkeeps := exec_keeps hx hI hJ
    exact ⟨hkeeps.sound, hkeeps.holds, hkeeps.bystander⟩

/-! ## Every session in the store -/

/-- The condition under which ids are reused: `generateID` returns no id of an earlier session that is not
    done. -/
def ReusesDone (s : State) (_ : Pc) (a : Choice) : Prop := reuses Session.done s a = true

instance (s : State) (l : Pc) (a : Choice) : Decidable (ReusesDone s l a) := by
  unfold ReusesDone
  infer_instance

/-- Sessions that are not done have ids of their own. -/
theorem State.Complete.unique (h : s.Complete) {j k : Nat} (hj : j < s.made) (hk : k < s.made)
    (hid : (s.session j).id = (s.session k).id) (hdj : (s.session j).done = false)
    (hdk : (s.session k).done = false) : j = k := by
  rcases Nat.lt_trichotomy j k with hlt | heq | hgt
  · rw [h.earlier j k hlt hk hid] at hdj
    cases hdj
  · exact heq
  · rw [h.earlier k j hgt hj hid.symm] at hdk
    cases hdk

/-- A change of one session and of the store. -/
theorem State.Complete.change (h : s.Complete) {k : Nat} {x : Session} {sessions : String → Option Nat}
    (hid : x.id = (s.session k).id) (hdone : (s.session k).done = true → x.done = true)
    (hlive : x.stored = true → x.failed = false → x.released = false → sessions x.id = some k)
    (hothers : ∀ j, j ≠ k → (s.session j).stored = true → (s.session j).released = false →
      s.sessions (s.session j).id = some j → sessions (s.session j).id = some j) :
    ({ s with sessions }.set k x).Complete where
  live j := by
    by_cases hj : j = k
    · subst hj
      simpa [State.set] using hlive
    · intro hs hf hr
      simp only [State.set, Function.update_of_ne hj] at hs hf hr ⊢
      exact hothers j hj hs hr (h.live j hs hf hr)
  earlier i j hij hj hsame := by
    have hids : ∀ n, (({ s with sessions }.set k x).session n).id = (s.session n).id := by
      intro n
      by_cases hn : n = k
      · subst hn
        simpa [State.set] using hid
      · simp [State.set, hn]
    rw [hids, hids] at hsame
    have hdone' := h.earlier i j hij hj hsame
    by_cases hi : i = k
    · subst hi
      simpa [State.set] using hdone hdone'
    · simpa [State.set, hi] using hdone'

/-- A change that leaves the store alone. -/
theorem State.Complete.update (h : s.Complete) {k : Nat} {x : Session} (hid : x.id = (s.session k).id)
    (hstored : x.stored = (s.session k).stored) (hfailed : x.failed = (s.session k).failed)
    (hreleased : x.released = (s.session k).released)
    (hhandshaking : x.handshaking = true → (s.session k).handshaking = true) : (s.set k x).Complete := by
  refine h.change hid ?_ ?_ (fun j _ _ _ hj => hj)
  · intro hdone
    simp only [Session.done, Bool.and_eq_true, Bool.not_eq_true', hstored, hreleased] at hdone ⊢
    exact ⟨by simpa [hdone.1] using hhandshaking, hdone.2⟩
  · intro hs hf hr
    rw [hid]
    exact h.live k (hstored ▸ hs) (hfailed ▸ hf) (hreleased ▸ hr)

/-- Whatever becomes of the entry of a session that is not done, that of another such session is not touched. -/
theorem State.Complete.others (h : s.Complete) (hI : s.Sound) {k : Nat} (hk : k < s.made)
    (hnew : (s.session k).done = false) (entry : Option Nat) {j : Nat} (hj : j ≠ k)
    (hs : (s.session j).stored = true) (hr : (s.session j).released = false)
    (hold : s.sessions (s.session j).id = some j) :
    Function.update s.sessions (s.session k).id entry (s.session j).id = some j := by
  rw [Function.update_of_ne, hold]
  intro hsame
  exact hj (h.unique (hI.made_of_stored hs) hk hsame (Session.not_done_of_stored hs hr) hnew)

theorem State.Complete.put (h : s.Complete) (hI : s.Sound) {k : Nat} {x : Session} (hk : k < s.made)
    (hid : x.id = (s.session k).id) (hnew : (s.session k).done = false) : ((s.put k).set k x).Complete := by
  refine h.change hid (by simp [hnew]) ?_ fun j => h.others hI hk hnew _
  intro _ _ _
  rw [hid, Function.update_self]

theorem State.Complete.delete (h : s.Complete) (hI : s.Sound) {k : Nat} {x : Session} (hk : k < s.made)
    (hid : x.id = (s.session k).id) (hnew : (s.session k).done = false)
    (hout : x.failed = true ∨ x.released = true) : ((s.delete (s.session k).id).set k x).Complete := by
  refine h.change hid (by simp [hnew]) ?_ fun j => h.others hI hk hnew _
  intro _ hf hr
  rcases hout with hout | hout
  · rw [hf] at hout
    cases hout
  · rw [hr] at hout
    cases hout

/-- A new session, whose id is that of done sessions only. -/
theorem State.Complete.make (h : s.Complete) {x : Session} (hs : x.stored = false)
    (hid : ∀ k < s.made, (s.session k).id = x.id → (s.session k).done = true) :
    ({ s with made := s.made + 1 }.set s.made x).Complete where
  live k := by
    by_cases hk : k = s.made
    · subst hk
      simp [State.set, hs]
    · simpa [State.set, hk] using h.live k
  earlier j k hjk hk hsame := by
    have hk' : k < s.made + 1 := hk
    have hj : j ≠ s.made := by omega
    by_cases hk : k = s.made
    · subst hk
      simp only [State.set, Function.update_self, Function.update_of_ne hj] at hsame ⊢
      exact hid j hjk hsame
    · simp only [State.set, Function.update_of_ne hj, Function.update_of_ne hk] at hsame ⊢
      exact h.earlier j k hjk (by omega) hsame

theorem exec_complete {s' : State} {l l' : Pc} {a : Choice} (h : exec s l a = some (s', l'))
    (hC : ReusesDone s l a) (hI : s.Sound) (hJ : l.Holds s) (hK : s.Complete) : s'.Complete := by
  revert h
  fun_cases exec s l a <;> intro h
  case case1 id type =>
    cases h
    refine hK.make rfl fun k hk hid => ?_
    have hall := List.all_eq_true.1 hC k (List.mem_range.2 hk)
    simpa [hid] using hall
  case case2 =>
    cases h
    exact hK
  case case4 k stage =>
    obtain ⟨hk, hclaims⟩ := hJ k rfl
    revert h
    fun_cases execHandshake s k stage a <;> intro h <;> cases h
    case case3 => exact hK.put hI hk rfl (Session.not_done_of_handshaking hclaims.1)
    case case5 => exact hK.delete hI hk rfl (Session.not_done_of_handshaking hclaims.1) (.inl rfl)
    case case2 | case7 => exact hK.update rfl rfl rfl rfl (fun h => (by cases h))
    case case6 => exact hK.update rfl rfl rfl rfl id
    all_goals exact hK
  case case7 =>
    cases h
    exact hK.update rfl rfl rfl rfl id
  case case8 k pc =>
    cases h
    obtain ⟨hk, hs, -, hr, -⟩ := hJ k rfl
    exact hK.delete hI hk rfl (Session.not_done_of_stored hs hr) (.inr rfl)
  all_goals cases h

theorem registry_complete {c : Pool State Pc} (hc : program.Reach ReusesDone c) : c.shared.Complete := by
  refine (hc.invariant (I := State.Complete) (J := fun _ _ => True) ?_ ?_).1
  · rintro s rfl
    exact ⟨⟨fun k hk => (by cases hk), fun j k _ hk => (by cases hk)⟩, trivial⟩
  · intro c i a s' l' hc hC hK _ hx
    obtain ⟨hI, hJ, -⟩ := registry_outline hc
    exact ⟨exec_complete hx hC hI (hJ i) hK, trivial, fun _ _ => trivial⟩

/-! ## Agreement -/

/-- A goroutine about to take session `k` out: its own handshake, which failed, or its own teardown. -/
def Pc.takesOut (k : Nat) : Pc → Prop
  | .handshake j .delete | .delete j _ => j = k
  | _ => False

/-- The registry agrees with the sessions. -/
structure State.Agrees (s : State) : Prop where
  /-- An open session is the one its id leads to. -/
  live : ∀ k < s.made, (s.session k).world.sock.state = .open → s.socket (s.session k).id = some k
  /-- A session whose close handler has run is gone. -/
  gone : ∀ k, (s.session k).world.closeReasons ≠ [] → ¬ s.sockets k

/-- Whoever has run the close handler of a session has taken it out. -/
theorem State.Sound.gone (h : s.Sound) {k : Nat} (hreports : (s.session k).world.closeReasons ≠ []) :
    ¬ s.sockets k := by
  rintro ⟨id, hid⟩
  obtain ⟨-, -, hr⟩ := h.entry id k hid
  rw [(h.sound k).reported hreports] at hr
  cases hr

theorem State.Complete.agrees (h : s.Complete) (hI : s.Sound) : s.Agrees where
  live k _ hopen := by
    obtain ⟨hs, -, hf, hr⟩ := (hI.sound k).isOpen hopen
    exact h.live k hs hf hr
  gone _ := hI.gone

/-- The entry under the id of a session that is not done is its own. -/
theorem State.Complete.entry_eq (h : s.Complete) (hI : s.Sound) {id : String} {j k : Nat}
    (hid : s.sessions id = some k) (hj : j < s.made) (hdone : (s.session j).done = false)
    (hsame : (s.session j).id = id) : j = k := by
  obtain ⟨hidk, hs, hr⟩ := hI.entry id k hid
  exact h.unique hj (hI.made_of_stored hs) (hsame.trans hidk.symm) hdone
    (Session.not_done_of_stored hs hr)

/-- The entry of a session goes away by its own handshake or teardown only. -/
theorem exec_entry {s' : State} {l l' : Pc} {a : Choice} (h : exec s l a = some (s', l'))
    (hI : s.Sound) (hK : s.Complete) (hJ : l.Holds s) {id : String} {k : Nat} (hid : s.sessions id = some k) :
    s'.sessions id = some k ∨ l.takesOut k := by
  have hdelete : ∀ {j : Nat} {x : Session}, j < s.made → (s.session j).done = false →
      ((s.delete (s.session j).id).set j x).sessions id = some k ∨ j = k := by
    intro j x hj hdone
    by_cases hsame : (s.session j).id = id
    · exact .inr (hK.entry_eq hI hid hj hdone hsame)
    · refine .inl ?_
      simpa [State.set, State.delete, Function.update_of_ne (Ne.symm hsame)] using hid
  revert h
  fun_cases exec s l a <;> intro h
  case case4 j stage =>
    obtain ⟨hj, hclaims⟩ := hJ j rfl
    revert h
    fun_cases execHandshake s j stage a <;> intro h <;> cases h
    case case3 =>
      refine .inl ?_
      by_cases hsame : (s.session j).id = id
      · have hdone := Session.not_done_of_handshaking hclaims.1
        obtain rfl := hK.entry_eq hI hid hj hdone hsame
        simp [State.set, State.put, hsame]
      · simpa [State.set, State.put, Function.update_of_ne (Ne.symm hsame)] using hid
    case case5 => exact hdelete hj (Session.not_done_of_handshaking hclaims.1)
    all_goals exact .inl hid
  case case8 j pc =>
    cases h
    obtain ⟨hj, hs, -, hr, -⟩ := hJ j rfl
    exact hdelete hj (Session.not_done_of_stored hs hr)
  all_goals first
    | (cases h; done)
    | (cases h; exact .inl hid)

/-- **The registry agrees with the live sessions.** Let `generateID` return an id again only when the handshake
    and the teardown of the sessions that had it are through with the store. Then in every run of any
    number of handshakes, calls and teardowns every open session is registered under its id, no session
    whose teardown has finished is in the registry, and no goroutine removes the entry of a session other
    than the one it tears down or failed to establish. -/
theorem registry_agrees (c : Pool State Pc) (hc : program.Reach ReusesDone c) :
    c.shared.Agrees ∧
      ∀ i a c', program.step c i a = some c' → ∀ id k, c.shared.socket id = some k →
        c'.shared.socket id = some k ∨ (c.thread i).takesOut k := by
  obtain ⟨hI, hJ, -⟩ := registry_outline hc
  have hK := registry_complete hc
  refine ⟨hK.agrees hI, fun i a c' h id k hid => ?_⟩
  obtain ⟨s', l', hx, rfl⟩ := Program.step_eq_some h
  exact exec_entry hx hI hK (hJ i) hid

/-- Goroutine `i` shakes hands on long polling. -/
def handshakeBy (i : Nat) (id : String) : List (Nat × Choice) :=
  [(i, Choice.handshake id .polling), (i, .built true), (i, .go), (i, .written true), (i, .go)]

/-- Goroutine `i` comes by session `k` and claims its teardown. -/
def claimBy (i k : Nat) : List (Nat × Choice) :=
  [(i, Choice.obtain k), (i, .session (.call (.closeWithReason .forcedClose))), (i, .session .go)]

/-- It closes the stop channel and the transports, and takes the session out. -/
def takeOutBy (i : Nat) : List (Nat × Choice) :=
  [(i, Choice.session .go), (i, .session .go), (i, .session .go), (i, .go)]

theorem registry_agrees_reused_id :
    ∃ c, program.Reach ReusesDone c ∧ c.shared.made = 2 ∧ c.shared.socket "a" = some 1 ∧
      (∃ i, (c.thread i).takesOut 1) ∧ c.shared.Agrees := by
  have hrun : ∃ c, program.runIf ReusesDone ⟨{}, fun _ => .idle⟩
      (handshakeBy 0 "a" ++ claimBy 1 0 ++ takeOutBy 1 ++ handshakeBy 2 "a" ++ claimBy 3 1 ++
        (takeOutBy 3).dropLast) = some c ∧ c.shared.made = 2 ∧ c.shared.socket "a" = some 1 ∧
      (c.thread 3).takesOut 1 := ⟨_, rfl, rfl, rfl, rfl⟩
  obtain ⟨c, hrun, hmade, hsocket, hout⟩ := hrun
  have hc := Program.Reach.runIf (.init rfl) hrun
  exact ⟨c, hc, hmade, hsocket, ⟨3, hout⟩, (registry_agrees c hc).1⟩

/-- `generateID` returns no id of a session that is not closed. -/
def ReusesClosed (s : State) (_ : Pc) (a : Choice) : Prop := reuses Session.closed s a = true

instance (s : State) (l : Pc) (a : Choice) : Decidable (ReusesClosed s l a) := by
  unfold ReusesClosed
  infer_instance

/-- A session is closed, and before its teardown takes it out of the store, a new one gets its id. The teardown
    goes on and takes the new session out: it is open, and not in the registry. -/
theorem teardown_takes_out_another :
    ∃ c, program.Reach ReusesClosed c ∧ (c.shared.session 1).world.sock.state = .open ∧
      (c.shared.session 1).id = "a" ∧ c.shared.socket "a" = none := by
  have hrun : ∃ c, program.runIf ReusesClosed ⟨{}, fun _ => .idle⟩
      (handshakeBy 0 "a" ++ claimBy 1 0 ++ handshakeBy 2 "a" ++ takeOutBy 1) = some c ∧
      (c.shared.session 1).world.sock.state = .open ∧ (c.shared.session 1).id = "a" ∧
      c.shared.socket "a" = none := ⟨_, rfl, rfl, rfl, rfl⟩
  obtain ⟨c, hrun, hopen, hid, hsocket⟩ := hrun
  exact ⟨c, Program.Reach.runIf (.init rfl) hrun, hopen, hid, hsocket⟩

end EngineIo.Server.Registry
