import EngineIo.Client.Deadlines
import EngineIo.Server.Deadlines

set_option autoImplicit false

/-! # A session and its client against one clock

A client closes if no packet comes within the ping interval and the ping timeout that it has negotiated, and the
session pings it. `Connection` has the two with their timers and one clock. The network is given by its `Latency`,
within which the clock advances: a ping reaches the client, and its pong is back, within a bounded time.

The session pings a ping interval after the last pong, and that pong left the client after the packet that armed its
timer last. So what the client has to wait for a packet is the ping interval and the latency, and as long as that is
less than what it has negotiated it does not take the session for dead. -/

namespace EngineIo.EndToEnd.Heartbeat

open Concurrency
open Server (Delays)

/-! ## Model -/

structure Connection where
  server : Timed Server.World Server.Pc Server.TimerKind
  client : Timed Client.World Client.Goroutine Unit
  /-- When the session sent its first ping since a packet last armed the timer of the client. -/
  unheard : Option Nat

structure Latency where
  /-- How long a ping may take until it has armed the timer of the client. -/
  ping : Nat
  /-- How long it may take until the pong has stopped the deadline, counted from the ping. The session is opened
      within the same time after the client has got the open packet. -/
  pong : Nat

/-- A pong that comes to an open session answers a ping of it. -/
def Answers (w : Server.World) (pc : Server.Pc) : Prop :=
  pc = .onPong → w.sock.state = .open → w.sock.alarms.pending .pong = true

def negotiates (heartbeat : Nat) (s : Client.Socket) (g : Client.Goroutine) : Bool :=
  match g.pc with
  | .packet (.recordOpen p) => (s.recordOpen p).heartbeat = heartbeat
  | _ => true

/-- Every open packet that the client records while its connection is live negotiates an interval and a timeout of
    `heartbeat` nanoseconds together, and no other is recorded. -/
def Negotiates (heartbeat : Nat) (w : Client.World) (g : Client.Goroutine) (a : Client.Choice) : Prop :=
  Client.RecordsLive w g a ∧ negotiates heartbeat w.sock g = true

instance (heartbeat : Nat) (w : Client.World) (g : Client.Goroutine) (a : Client.Choice) :
    Decidable (Negotiates heartbeat w g a) :=
  inferInstanceAs (Decidable (_ ∧ _))

/-- The clock may stand at `now`: nothing is on its way for longer than the latency. -/
structure Prompt (latency : Latency) (t : Connection) (now : Nat) : Prop where
  ping : ∀ time, t.unheard = some time → now ≤ time + latency.ping
  pong : t.server.pool.shared.sock.alarms.pending .pong = true → now ≤ t.server.armed .pong + latency.pong
  opening : t.server.pool.shared.sock.state = .opening → t.client.pool.shared.sock.pending = true →
    now ≤ t.client.armed () + latency.pong

/-- Both ends with the clock at zero. -/
def start (s : Server.World) (w : Client.World) : Connection where
  server := ⟨⟨s, fun _ => Server.program.idle⟩, 0, fun _ => 0, fun _ => 0, fun _ _ => none⟩
  client := ⟨⟨w, fun _ => Client.program.idle⟩, 0, fun _ => 0, fun _ => 0, fun _ _ => none⟩
  unheard := none

section

variable (d : Delays) (slack : Slack) (latency : Latency) (heartbeat : Nat)

/-- A section of the session; a ping that it sends is on its way. -/
def Connection.serve (t : Connection) (i : Nat) (a : Server.Choice) (s' : Server.World) (pc' : Server.Pc) :
    Connection :=
  { t with
    server := (Server.timers d).after t.server i a s' pc'
    unheard := t.unheard.or
      (if (t.server.pool.thread i).arms t.server.pool.shared.sock .pong then some t.server.now else none) }

/-- A section of the client; a packet that arms its timer has been heard. -/
def Connection.hear (t : Connection) (i : Nat) (a : Client.Choice) (w' : Client.World) (g' : Client.Goroutine) :
    Connection :=
  { t with
    client := Client.timers.after t.client i a w' g'
    unheard :=
      if ((t.client.pool.thread i).arms t.client.pool.shared.sock).isSome then none else t.unheard }

inductive Reach : Connection → Prop
  | init {s : Server.World} {w : Client.World} (hs : Server.program.init s) (hw : Client.program.init w) :
      Reach (start s w)
  | wait {t : Connection} (ht : Reach t) (now : Nat) (hle : t.server.now ≤ now)
      (hserver : (Server.timers d).Punctual slack t.server now)
      (hclient : Client.timers.Punctual slack t.client now) (hprompt : Prompt latency t now) :
      Reach { t with server := { t.server with now }, client := { t.client with now } }
  | server {t : Connection} (ht : Reach t) (i : Nat) (a : Server.Choice) (s' : Server.World) (pc' : Server.Pc)
      (hC : Answers t.server.pool.shared (t.server.pool.thread i))
      (hx : Server.exec t.server.pool.shared (t.server.pool.thread i) a = some (s', pc'))
      (hdue : ∀ k, (Server.timers d).fires k t.server.pool.shared a = true →
        t.server.armed k + t.server.delay k ≤ t.server.now) :
      Reach (t.serve d i a s' pc')
  | client {t : Connection} (ht : Reach t) (i : Nat) (a : Client.Choice) (w' : Client.World)
      (g' : Client.Goroutine) (hC : Negotiates heartbeat t.client.pool.shared (t.client.pool.thread i) a)
      (hx : Client.exec t.client.pool.shared (t.client.pool.thread i) a = some (w', g'))
      (hdue : ∀ k, Client.timers.fires k t.client.pool.shared a = true →
        t.client.armed k + t.client.delay k ≤ t.client.now) :
      Reach (t.hear i a w' g')

end

variable {d : Delays} {slack : Slack} {latency : Latency} {heartbeat : Nat} {t : Connection}

theorem serve_armed {i : Nat} {a : Server.Choice} {s' : Server.World} {pc' : Server.Pc} (k : Server.TimerKind) :
    (t.serve d i a s' pc').server.armed k =
      if (t.server.pool.thread i).arms t.server.pool.shared.sock k then t.server.now else t.server.armed k := by
  by_cases h : (t.server.pool.thread i).arms t.server.pool.shared.sock k = true
  · simp [Connection.serve, Timers.after, Server.timers, h]
  · simp [Connection.serve, Timers.after, Server.timers, h]

theorem hear_armed {i : Nat} {a : Client.Choice} {w' : Client.World} {g' : Client.Goroutine} :
    (t.hear i a w' g').client.armed () =
      if ((t.client.pool.thread i).arms t.client.pool.shared.sock).isSome then t.client.now
      else t.client.armed () :=
  rfl

/-! ## The two ends by themselves -/

theorem Reach.now_eq (ht : Reach d slack latency heartbeat t) : t.client.now = t.server.now := by
  induction ht with
  | init => rfl
  | wait => rfl
  | server _ _ _ _ _ _ _ _ ih => exact ih
  | client _ _ _ _ _ _ _ _ ih => exact ih

theorem Reach.of_server (ht : Reach d slack latency heartbeat t) :
    (Server.timers d).Reachable slack t.server := by
  induction ht with
  | init hs => exact .init hs
  | wait _ now hle hserver _ _ ih => exact ih.wait now hle hserver
  | server _ i a s' pc' hC hx hdue ih => exact ih.step i a s' pc' trivial hx hdue
  | client _ _ _ _ _ _ _ _ ih => exact ih

theorem Reach.of_client (ht : Reach d slack latency heartbeat t) :
    Client.timers.Reach slack (Negotiates heartbeat) t.client := by
  induction ht with
  | init _ hw => exact .init hw
  | @wait t ht now hle _ hclient _ ih => exact ih.wait now (ht.now_eq ▸ hle) hclient
  | server _ _ _ _ _ _ _ _ ih => exact ih
  | client _ i a w' g' hC hx hdue ih => exact ih.step i a w' g' hC hx hdue

/-! ## What the client has negotiated -/

section

variable {w w' : Client.World} {g g' : Client.Goroutine} {a : Client.Choice}

theorem Negotiates.at_recordOpen (h : Negotiates heartbeat w g a) {p : Client.OpenPacket}
    (hpc : g.pc = .packet (.recordOpen p)) : (w.sock.recordOpen p).heartbeat = heartbeat := by
  have hp := h.2
  rw [negotiates, hpc] at hp
  exact of_decide_eq_true hp

/-- Before the first open packet there is nothing to arm the timer with. -/
def Negotiated (heartbeat : Nat) (s : Client.Socket) : Prop := s.heartbeat = 0 ∨ s.heartbeat = heartbeat

theorem negotiated_step (h : Client.WatchStep w g a w' g') (hC : Negotiates heartbeat w g a)
    (hI : Negotiated heartbeat w.sock) : Negotiated heartbeat w'.sock := by
  cases h with
  | other _ hheartbeat | release _ _ hheartbeat =>
    rw [Negotiated, hheartbeat]
    exact hI
  | record p hpc hs =>
    rw [hs]
    exact .inr (hC.at_recordOpen hpc)
  | rearm conn _ hs =>
    rw [hs, Negotiated, Client.heartbeat_reschedule]
    exact hI
  | fire timer _ _ _ _ hs =>
    rw [hs]
    exact hI

theorem reach_negotiated {c : Pool Client.World Client.Goroutine}
    (hc : Client.program.Reach (Negotiates heartbeat) c) : Negotiated heartbeat c.shared.sock := by
  refine (hc.invariant (I := fun w => Negotiated heartbeat w.sock) (J := fun _ _ => True) ?_ ?_).1
  · rintro w ⟨upgrade, remember, tryAll, transports, rfl⟩
    exact ⟨.inl rfl, trivial⟩
  · intro c i a w' g' _ hC hI _ hx
    exact ⟨negotiated_step (Client.exec_watch hx) hC hI, trivial, fun _ _ => trivial⟩

theorem arms_eq {t : Timed Client.World Client.Goroutine Unit}
    (ht : Client.timers.Reach slack (Negotiates heartbeat) t) {i : Nat} {delay : Nat}
    (h : Client.timers.arms () t.pool.shared (t.pool.thread i) a = some delay) : delay = heartbeat := by
  have hnegotiated : t.pool.shared.sock.heartbeat = 0 ∨ t.pool.shared.sock.heartbeat = heartbeat :=
    reach_negotiated ht.pool
  have harms : ((t.pool.thread i).rearms = true ∧ 0 < t.pool.shared.sock.heartbeat) ∧
      t.pool.shared.sock.heartbeat.toNat = delay := by
    simpa [Client.timers, Client.Goroutine.arms] using h
  omega

end

/-! ## The session on its way to being open -/

/-- The session has not been closed, by anyone. -/
def Alive (w : Server.World) : Prop := w.sock.state = .opening ∨ w.sock.state = .open

section

variable {w w' : Server.World} {pc pc' : Server.Pc} {a : Server.Choice}

theorem opening_of_move {v v' : Server.Outbound} {st st' : Server.Stage} (h : Server.Move v st v' st')
    (hs : v'.state = .opening) : v.state = .opening := by
  cases h with
  | opened | last | teardown => cases hs
  | _ => exact hs

theorem alive_of_move {v v' : Server.Outbound} {st st' : Server.Stage} (h : Server.Move v st v' st')
    (hs : v'.state = .opening ∨ v'.state = .open) : v.state = .opening ∨ v.state = .open := by
  cases h with
  | opened h => exact .inl h
  | last | teardown => rcases hs with h | h <;> cases h
  | _ => exact hs

theorem opening_of_exec (hx : Server.exec w pc a = some (w', pc')) (hs : w'.sock.state = .opening) :
    w.sock.state = .opening :=
  opening_of_move (Server.exec_move hx) hs

theorem alive_of_exec (hx : Server.exec w pc a = some (w', pc')) (hs : Alive w') : Alive w :=
  alive_of_move (Server.exec_move hx) hs

end

/-! ## What is on its way -/

theorem Reach.prompt (ht : Reach d slack latency heartbeat t) : Prompt latency t t.server.now := by
  induction ht with
  | @init s w hs hw =>
    refine ⟨fun time h => (by cases h), fun h => ?_, fun _ h => ?_⟩
    · exact absurd (h.symm.trans ((Server.timers d).pending_init (k := .pong) hs)) (by decide)
    · exact absurd (h.symm.trans (Client.timers.pending_init (k := ()) hw)) (by decide)
  | wait _ now _ _ _ hprompt => exact ⟨hprompt.ping, hprompt.pong, hprompt.opening⟩
  | @server t ht i a s' pc' hC hx hdue ih =>
    refine ⟨fun time h => ?_, fun h => ?_, fun hs h => ?_⟩
    · rcases Option.or_eq_some_iff.1 h with h | ⟨-, h⟩
      · exact ih.ping time h
      · obtain ⟨-, h⟩ := Option.ite_none_right_eq_some.1 h
        cases h
        exact Nat.le_add_right _ _
    · show t.server.now ≤ _
      rw [serve_armed]
      split
      · exact Nat.le_add_right _ _
      · next harms =>
        refine ih.pong (((Server.timers d).pending_of_exec (k := .pong) hx h).resolve_left fun hsome => ?_)
        exact harms (Server.timers_arms hsome)
    · exact ih.opening (opening_of_exec hx hs) h
  | @client t ht i a w' g' hC hx hdue ih =>
    refine ⟨fun time h => ?_, ih.pong, fun hs h => ?_⟩
    · obtain ⟨-, h⟩ := Option.ite_none_left_eq_some.1 h
      exact ih.ping time h
    · rw [hear_armed]
      split
      · rw [ht.now_eq]
        exact Nat.le_add_right _ _
      · next harms => exact ih.opening hs ((Client.timers.pending_of_exec (k := ()) hx h).resolve_left harms)

/-- How far the session is behind the packet that armed the timer of the client. -/
def Follows (d : Delays) (slack : Slack) (latency : Latency) (t : Connection) : Prop :=
  match t.unheard with
  | none => t.server.armed .pong ≤ t.client.armed () ∧ t.server.armed .ping ≤ t.client.armed () + latency.pong
  | some time => time ≤ t.client.armed () + latency.pong + d.pingInterval + slack.late + slack.run

/-- A ping is sent within the ping interval of the last pong. -/
theorem Reach.pinged_le (ht : Reach d slack latency heartbeat t) {i : Nat}
    (h : (t.server.pool.thread i).arms t.server.pool.shared.sock .pong = true) :
    t.server.now ≤ t.server.armed .ping + d.pingInterval + slack.late + slack.run := by
  have hpc : t.server.pool.thread i = .sendPing := (of_decide_eq_true h).1
  exact Server.within_delay ht.of_server (k := .ping)
    (.inr ⟨i, Server.started_of_sendPing ht.of_server hpc⟩)

/-- The session hears of its client within the latency of its ping, or is opened in time. -/
theorem Reach.heard_le (ht : Reach d slack latency heartbeat t) {i : Nat}
    (hC : Answers t.server.pool.shared (t.server.pool.thread i))
    (h : (t.server.pool.thread i).arms t.server.pool.shared.sock .ping = true)
    (hpending : t.client.pool.shared.sock.pending = true) (hpong : t.server.armed .pong ≤ t.client.armed ()) :
    t.server.now ≤ t.client.armed () + latency.pong := by
  have hcases : t.server.pool.thread i = .open ∧ t.server.pool.shared.sock.state = .opening ∨
      t.server.pool.thread i = .onPong ∧ t.server.pool.shared.sock.state = .open := of_decide_eq_true h
  rcases hcases with ⟨-, hs⟩ | ⟨hpc, hs⟩
  · exact ht.prompt.opening hs hpending
  · have hnow := ht.prompt.pong (hC hpc hs)
    omega

theorem Reach.follows (ht : Reach d slack latency heartbeat t) (halive : Alive t.server.pool.shared)
    (hpending : t.client.pool.shared.sock.pending = true) : Follows d slack latency t := by
  induction ht with
  | init _ hw => exact absurd (hpending.symm.trans (Client.timers.pending_init (k := ()) hw)) (by decide)
  | wait _ _ _ _ _ _ ih => exact ih halive hpending
  | @server t ht i a s' pc' hC hx hdue ih =>
    have hold := ih (alive_of_exec hx halive) hpending
    unfold Follows at hold ⊢
    cases hunheard : t.unheard with
    | some time =>
      rw [hunheard] at hold
      simpa [Connection.serve, hunheard] using hold
    | none =>
      rw [hunheard] at hold
      by_cases hpong : (t.server.pool.thread i).arms t.server.pool.shared.sock .pong = true
      · have hnow := ht.pinged_le hpong
        have hunheard' : (t.serve d i a s' pc').unheard = some t.server.now := by
          simp [Connection.serve, hunheard, hpong]
        rw [hunheard']
        show t.server.now ≤ t.client.armed () + latency.pong + d.pingInterval + slack.late + slack.run
        omega
      · have hunheard' : (t.serve d i a s' pc').unheard = none := by
          simp [Connection.serve, hunheard, hpong]
        rw [hunheard']
        refine ⟨?_, ?_⟩
        · rw [serve_armed, if_neg hpong]
          exact hold.1
        · rw [serve_armed]
          split
          · next hping => exact ht.heard_le hC hping hpending hold.1
          · exact hold.2
  | @client t ht i a w' g' hC hx hdue ih =>
    by_cases harms : ((t.client.pool.thread i).arms t.client.pool.shared.sock).isSome = true
    · have hunheard : (t.hear i a w' g').unheard = none := if_pos harms
      have hpong := ht.of_server.armed_le .pong
      have hping := ht.of_server.armed_le .ping
      rw [Follows, hunheard, hear_armed, if_pos harms, ht.now_eq]
      exact ⟨hpong, Nat.le_trans hping (Nat.le_add_right _ _)⟩
    · have hunheard : (t.hear i a w' g').unheard = t.unheard := if_neg harms
      rw [Follows, hunheard, hear_armed, if_neg harms]
      exact ih halive ((Client.timers.pending_of_exec (k := ()) hx hpending).resolve_left harms)

/-! ## Main result -/

/-- The pong deadline strikes within the latency of a pong, if at all. -/
theorem Reach.pong_started_le (ht : Reach d slack latency heartbeat t) {i time : Nat}
    (h : t.server.started i .pong = some time) : time ≤ t.server.armed .pong + latency.pong := by
  induction ht generalizing i time with
  | init => cases h
  | wait _ _ _ _ _ _ ih => exact ih h
  | client _ _ _ _ _ _ _ _ ih => exact ih h
  | @server t ht j a s' pc' hC hx hdue ih =>
    have htime : time ≤ t.server.armed .pong + latency.pong ∧ time ≤ t.server.now := by
      rcases Timers.after_started_eq_some h with ⟨-, hf, rfl⟩ | hold
      · exact ⟨ht.prompt.pong ((Server.timers d).pending_of_fires hx hf), Nat.le_refl _⟩
      · exact ⟨ih hold, (ht.of_server.started_le hold).2⟩
    rw [serve_armed]
    split
    · exact Nat.le_trans htime.2 (Nat.le_add_right _ _)
    · exact htime.1

/-- An open session has pinged its client within the latency of a pong, or pings it within the ping interval. -/
theorem Reach.open_now_le (ht : Reach d slack latency heartbeat t) (hs : t.server.pool.shared.sock.state = .open) :
    t.server.now ≤ t.server.armed .pong + latency.pong + slack.run ∨
      t.server.now ≤ t.server.armed .ping + d.pingInterval + slack.late + slack.run := by
  by_cases hpong : t.server.pool.shared.sock.pongTimer = none
  · exact .inr (Server.within_delay ht.of_server (Server.ping_pending_or_started ht.of_server hs hpong))
  · refine .inl ?_
    rcases Server.pong_outstanding ht.of_server hpong with hpending | ⟨i, hstarted⟩
    · have hnow := ht.prompt.pong hpending
      omega
    · obtain ⟨time, htime⟩ := Option.isSome_iff_exists.1 hstarted
      have hrun := ht.of_server.punctual.2 i .pong time htime
      have hstart := ht.pong_started_le htime
      omega

/-- What the client has to wait for a packet. -/
theorem Reach.now_le (ht : Reach d slack latency heartbeat t) (halive : Alive t.server.pool.shared)
    (hpending : t.client.pool.shared.sock.pending = true) :
    t.server.now ≤
      t.client.armed () + latency.pong + d.pingInterval + slack.late + slack.run + latency.ping := by
  have hfollows := ht.follows halive hpending
  unfold Follows at hfollows
  cases hunheard : t.unheard with
  | some time =>
    rw [hunheard] at hfollows
    have hnow := ht.prompt.ping time hunheard
    omega
  | none =>
    rw [hunheard] at hfollows
    obtain ⟨hpong_le, hping_le⟩ := hfollows
    rcases halive with hs | hs
    · have hnow := ht.prompt.opening hs hpending
      omega
    · rcases ht.open_now_le hs with hnow | hnow
      · omega
      · omega

/-- **A session is not taken for dead.** If the ping interval, the latency of a ping and of its pong and the slack of a
    timer add up to less than the client has negotiated, then as long as nobody closes the session the client does not
    start the function of its timer. -/
theorem healthy_connection (d : Delays) (slack : Slack) (latency : Latency) (heartbeat : Nat)
    (hbound : d.pingInterval + latency.ping + latency.pong + slack.late + slack.run < heartbeat) (t : Connection)
    (ht : Reach d slack latency heartbeat t) (halive : Alive t.server.pool.shared) (i : Nat) :
    t.client.started i () = none := by
  induction ht generalizing i with
  | init => rfl
  | wait _ _ _ _ _ _ ih => exact ih halive i
  | server _ _ _ _ _ _ hx _ ih => exact ih (alive_of_exec hx halive) i
  | @client t ht j a w' g' hC hx hdue ih =>
    rw [Option.eq_none_iff_forall_ne_some]
    intro time h
    rcases Timers.after_started_eq_some h with ⟨-, hf, -⟩ | hold
    · -- the timer is due, but the client cannot have waited for so long
      have hpending := Client.timers.pending_of_fires hx hf
      have hdelay := ht.of_client.delay_of_pending (k := ()) (Q := (· = heartbeat)) (fun ht harms => arms_eq ht harms)
        hpending
      have hnow := ht.now_le halive hpending
      have hclock := ht.now_eq
      have := hdue () hf
      omega
    · rw [ih halive i] at hold
      cases hold

/-! ## A run -/

/-- The client runs a schedule in which its timer does not fire. -/
theorem Reach.clients (ht : Reach d slack latency heartbeat t) {as : List (Nat × Client.Choice)}
    {c : Pool Client.World Client.Goroutine}
    (h : Client.program.runIf (fun w g a => Negotiates heartbeat w g a ∧ a ≠ .call .pingTimeout) t.client.pool as =
      some c) :
    ∃ t', Reach d slack latency heartbeat t' ∧ t'.client.pool = c ∧ t'.server = t.server ∧
      (t.unheard = none → t'.unheard = none) := by
  induction as generalizing t with
  | nil => exact ⟨t, ht, Option.some.inj h, rfl, id⟩
  | cons ia rest ih =>
    rw [Program.runIf, Option.ite_none_right_eq_some] at h
    obtain ⟨c₁, h₁, h₂⟩ := Option.bind_eq_some_iff.1 h.2
    obtain ⟨w', g', hx, rfl⟩ := Program.step_eq_some h₁
    have hstep := ht.client ia.1 ia.2 w' g' h.1.1 hx fun _ hf => absurd hf (by simp [Client.timers, h.1.2])
    obtain ⟨t', ht', hpool, hserver, hunheard⟩ := ih hstep h₂
    refine ⟨t', ht', hpool, hserver, fun hnone => hunheard ?_⟩
    show (if _ then none else t.unheard) = none
    rw [hnone, ite_self]

/-- A session and its client with the default options, just before the first ping. -/
theorem healthy_connection_first_ping :
    ∃ t, Reach ⟨25000000000, 20000000000, 10000000000⟩ ⟨1, 1⟩ ⟨1000000000, 2000000000⟩ 45000000000 t ∧
      t.server.now = 25000000000 ∧ t.server.pool.shared.sock.state = .open ∧
      t.client.pool.shared.sock.state = .open ∧ ∀ i, t.client.started i () = none := by
  have hinit : Reach ⟨25000000000, 20000000000, 10000000000⟩ ⟨1, 1⟩ ⟨1000000000, 2000000000⟩ 45000000000 _ :=
    .init (s := Server.freshPolling.shared) (w := {}) ⟨.polling, rfl⟩ ⟨true, false, false, [.polling, .websocket], rfl⟩
  have hcall := hinit.server 0 (.call .open) _ _ (fun h => (by cases h)) rfl fun k hf => ?_
  · have hopen := hcall.server 0 .go _ _ (fun h => (by cases h)) rfl fun k hf => ?_
    · have hrun : ∃ c, Client.program.runIf (fun w g a => Negotiates 45000000000 w g a ∧
          a ≠ .call .pingTimeout) Client.fresh (Client.openBy 0 ++ Client.handshakeBy 1 1 Client.serverOpen) = some c ∧
          c.shared.sock.state = .open ∧ c.shared.sock.pending = true ∧ ∀ i, (c.thread i).closes = false := by
        refine ⟨_, rfl, rfl, rfl, ?_⟩
        rintro (_ | _ | i) <;> rfl
      obtain ⟨c, hrun, hstate, hpending, hthread⟩ := hrun
      obtain ⟨t, ht, rfl, hserver, hunheard⟩ := hopen.clients hrun
      have hdelay := ht.of_client.delay_of_pending (k := ()) (Q := (· = 45000000000))
        (fun ht harms => arms_eq ht harms) hpending
      have h25 := ht.wait 25000000000 (by rw [hserver]; exact Nat.zero_le _) ⟨fun k hk => ?_, fun i k time h => ?_⟩
        ⟨fun _ _ => ?_, fun i k time h => ?_⟩ ⟨fun time h => ?_, fun h => ?_, fun h => ?_⟩
      · have hopened : t.server.pool.shared.sock.state = .open := by
          rw [hserver]
          rfl
        exact ⟨_, h25, rfl, hopened, hstate, healthy_connection _ _ _ _ (by decide) _ h25 (.inr hopened)⟩
      · rw [hserver] at hk ⊢
        cases k with
        | ping => exact Nat.le_succ _
        | _ => cases hk
      · rw [hserver] at h
        cases i <;> cases k <;> cases h
      · rw [hdelay]
        omega
      · have hserves := ht.of_client.serves_of_started (show (t.client.started i k).isSome = true by rw [h]; rfl)
        exact absurd (hserves.symm.trans (hthread i)) (by decide)
      · rw [hunheard rfl] at h
        cases h
      · rw [hserver] at h
        cases h
      · rw [hserver] at h
        cases h
    · obtain ⟨ha, -⟩ := Server.timers_fires hf
      cases k <;> cases ha
  · obtain ⟨ha, -⟩ := Server.timers_fires hf
    cases k <;> cases ha

end EngineIo.EndToEnd.Heartbeat
