import EngineIo.Client.Steady

set_option autoImplicit false

/-! # The messages on their way through a client

A message that has reached the client is held by the goroutine that dispatches the response it came
in, or by the read loop of the websocket, until it is handed to the message handler. `Passage` says what
a section does with the messages of its frame, and `Carried` which messages the dispatch and the read
loop hold between two sections. -/

namespace EngineIo.Client.Switchover

open Concurrency

def Frame.isData : Frame → Bool
  | .onData _ => true
  | _ => false

def Frame.isRead : Frame → Bool
  | .read _ => true
  | _ => false

/-- Whether a goroutine dispatches a response. -/
def dispatching (l : List Frame) : Bool := l.any Frame.isData

/-- Whether a goroutine is the read loop of the adopted websocket. -/
def reading (l : List Frame) : Bool := l.any Frame.isRead

/-- The message that the next section hands to the message handler. -/
def handles : List Frame → List Packet
  | .handlePacket p :: _ => EngineIo.messages [p]
  | _ => []

/-- Whether the next section takes in packets. -/
def arrives : List Frame → Choice → Bool
  | [], .handshake _ => true
  | .pollRequest :: _, .polled (.body (some _)) => true
  | .read _ :: _, .frame (some _) => true
  | _, _ => false

/-- What a section does with the messages of its frame. -/
inductive Passage (w : World) : Frame → Choice → List Frame → Prop
  | keep {f : Frame} {a : Choice} {fs : List Frame} (hheld : held fs = f.messages)
      (hdata : dispatching fs = f.isData) (hread : reading fs = f.isRead)
      (hhandles : handles [f] = []) (harrives : arrives [f] a = false) : Passage w f a fs
  | handle {p : Packet} {a : Choice} {fs : List Frame} (hheld : held fs = [])
      (hdata : dispatching fs = false) (hread : reading fs = false) : Passage w (.handlePacket p) a fs
  | drop {t : Nat} {p : Packet} {a : Choice} (h : (w.object t).onPacket ≠ .socket) :
      Passage w (.onPacket t p) a []
  | respond {ps : List Packet} :
      Passage w .pollRequest (.polled (.body (some ps))) [.onData ps, .pollDone]
  | finish {a : Choice} : Passage w (.onData []) a []
  | stop {t : Nat} : Passage w (.read t) .go []
  | receive {t : Nat} {p : Packet} : Passage w (.read t) (.frame (some p)) [.onPacket t p, .read t]
  | fail {t : Nat} {a : Choice} {fs : List Frame}
      (ha : a ≠ .go ∧ ∀ p, a = .frame (some p) → p.type = .close) : Passage w (.read t) a fs
  | adopt {t : Nat} {a : Choice} : Passage w (.probe (.bindClose t)) a [.beginFlush, .read t]

variable {w w' : World} {f : Frame} {pc : ProbeFrame} {a : Choice} {fs l l' : List Frame}

theorem execFlush_passage (h : execFlush w f a = some (w', fs)) : Passage w f a fs := by
  revert h
  fun_cases execFlush w f a <;> intro h <;> cases h
  all_goals exact .keep rfl rfl rfl rfl rfl

theorem execSocket_passage (h : execSocket w f a = some (w', fs)) : Passage w f a fs := by
  revert h
  fun_cases execSocket w f a <;> intro h <;> cases h
  case case17 | case18 | case19 | case21 => exact .handle rfl rfl rfl
  all_goals exact .keep rfl rfl rfl rfl rfl

theorem execProbe_passage (h : execProbe w pc a = some (w', fs)) : Passage w (.probe pc) a fs := by
  revert h
  fun_cases execProbe w pc a <;> intro h <;> cases h
  case case33 => exact .adopt
  all_goals exact .keep rfl rfl rfl rfl rfl

theorem Passage.of_handler {h : Handler} {socket : Frame} {t : Nat} (pre : List Frame)
    (hs : socket.inert = true) (hpre : held pre = [] ∧ dispatching pre = false ∧ reading pre = false)
    (hf : f.messages = [] ∧ f.isData = false ∧ f.isRead = false) (hhandles : handles [f] = [])
    (harrives : arrives [f] a = false) : Passage w f a (pre ++ h.frames socket t) := by
  have hframes : held (h.frames socket t) = [] ∧ dispatching (h.frames socket t) = false ∧
      reading (h.frames socket t) = false := by
    cases h with
    | unset => exact ⟨rfl, rfl, rfl⟩
    | probe => exact ⟨rfl, rfl, rfl⟩
    | socket => cases socket <;> first | exact ⟨rfl, rfl, rfl⟩ | cases hs
  refine .keep ?_ ?_ ?_ hhandles harrives
  · rw [held_append, hpre.1, hframes.1, hf.1, List.append_nil]
  · rw [dispatching, List.any_append, ← dispatching, ← dispatching, hpre.2.1, hframes.2.1, hf.2.1,
      Bool.false_or]
  · rw [reading, List.any_append, ← reading, ← reading, hpre.2.2, hframes.2.2, hf.2.2,
      Bool.false_or]

theorem execTransport_passage (h : execTransport w f a = some (w', fs)) : Passage w f a fs := by
  revert h
  fun_cases execTransport w f a <;> intro h <;> cases h
  case case3 | case4 =>
    unfold World.closeRest
    split <;> exact .keep rfl rfl rfl rfl rfl
  case case12 | case15 => exact .of_handler [] rfl ⟨rfl, rfl, rfl⟩ ⟨rfl, rfl, rfl⟩ rfl rfl
  case case14 t _ =>
    exact .of_handler [.onError t] rfl ⟨rfl, rfl, rfl⟩ ⟨rfl, rfl, rfl⟩ rfl rfl
  case case17 hs => exact .drop hs
  case case16 => exact .keep (by simp [held, Frame.messages]) rfl rfl rfl rfl
  all_goals exact .keep rfl rfl rfl rfl rfl

theorem execLoop_passage (h : execLoop w f a = some (w', fs)) : Passage w f a fs := by
  revert h
  fun_cases execLoop w f a <;> intro h <;> cases h
  case case8 => exact .respond
  case case10 | case11 => exact .finish
  case case12 p ps hs =>
    refine .keep ?_ rfl rfl rfl rfl
    simp [held, Frame.messages, messages_cons p ps]
  case case13 p ps hs =>
    refine .keep ?_ rfl rfl rfl rfl
    simp [held, Frame.messages, messages_cons p ps]
  case case15 => exact .stop
  case case19 p _ hclose => exact .fail ⟨by simp, by simp [hclose]⟩
  case case20 => exact .receive
  case case21 | case22 => exact .fail ⟨by simp, by simp⟩
  all_goals exact .keep rfl rfl rfl rfl rfl

/-- **Passages.** Every section lets messages pass in one of these ways. -/
theorem exec_passage (h : exec w f a = some (w', fs)) : Passage w f a fs := by
  cases runs_of_exec h with
  | probe h => exact execProbe_passage h
  | flush h => exact execFlush_passage h
  | socket h => exact execSocket_passage h
  | transport h => exact execTransport_passage h
  | loop h => exact execLoop_passage h

/-! ## Who holds messages -/

variable {v : View} {rest : List Frame}

theorem dispatching_append (l m : List Frame) :
    dispatching (l ++ m) = (dispatching l || dispatching m) :=
  List.any_append

theorem reading_append (l m : List Frame) : reading (l ++ m) = (reading l || reading m) :=
  List.any_append

/-- A frame that is on top of a stack, and never at its base. -/
def Frame.Above (f : Frame) : Prop :=
  f.inert = true ∨ (∃ t, f.Carries t) ∨ f = .goProbe ∨ f.tidies = true ∨ f = .onClose 0 ∨
    f = .onError 0

theorem Frame.Above.flags (hf : f.Above) : f.isData = false ∧ f.isRead = false := by
  rcases hf with hf | ⟨t, p, rfl | rfl⟩ | rfl | hf | rfl | rfl
  · cases f <;> simp_all [Frame.inert, Frame.isData, Frame.isRead]
  · exact ⟨rfl, rfl⟩
  · exact ⟨rfl, rfl⟩
  · exact ⟨rfl, rfl⟩
  · cases f <;> simp_all [Frame.tidies, Frame.isData, Frame.isRead]
  · exact ⟨rfl, rfl⟩
  · exact ⟨rfl, rfl⟩

theorem Frame.Above.of_dispatch
    (h : f.inert = true ∨ f.Carries 0 ∨ f = .goProbe ∨ f = .onClose 0) : f.Above := by
  rcases h with h | h | h | h
  · exact .inl h
  · exact .inr (.inl ⟨0, h⟩)
  · exact .inr (.inr (.inl h))
  · exact .inr (.inr (.inr (.inr (.inl h))))

theorem Frame.Above.of_done (h : f.inert = true ∨ f = .onError 0) : f.Above :=
  h.imp_right fun h => .inr (.inr (.inr (.inr h)))

theorem Frame.Above.of_tidy (h : f.inert = true ∨ f.tidies = true) : f.Above :=
  h.imp_right fun h => .inr (.inr (.inl h))

theorem Frame.Above.of_read {t : Nat} (h : f.inert = true ∨ f.Carries t) : f.Above :=
  h.imp_right fun h => .inl ⟨t, h⟩

theorem flags_of_above (hl : ∀ f ∈ l, f.Above) : dispatching l = false ∧ reading l = false := by
  constructor
  · rw [dispatching, List.any_eq_false]
    exact fun f hf => by simp [(hl f hf).flags.1]
  · rw [reading, List.any_eq_false]
    exact fun f hf => by simp [(hl f hf).flags.2]

theorem Frame.messages_of_tidies (hf : f.tidies = true) : f.messages = [] := by
  cases f with
  | onPacket | handlePacket | onData => cases hf
  | _ => rfl

theorem held_of_tidies (hl : ∀ f ∈ l, f.inert = true ∨ f.tidies = true) : held l = [] := by
  refine List.flatMap_eq_nil_iff.2 fun f hf => ?_
  rcases hl f hf with h | h
  · exact Frame.messages_of_inert h
  · exact Frame.messages_of_tidies h

/-- A goroutine holds messages as the dispatch of a response, as the read loop, or not at all. -/
inductive Stack.Kind (v : View) (l : List Frame) : Prop
  | other (hd : dispatching l = false) (hr : reading l = false) (hheld : held l = [])
  | dispatch (hd : dispatching l = true) (hr : reading l = false)
      (hpolls : 0 < Frames.units Frame.polls l) (hdone : 0 < Frames.units Frame.dispatches l)
      (hclosed : (v.object 0).state = .closed → held l = [])
  | read (hd : dispatching l = false) (hr : reading l = true)
      (hprobes : 0 < Frames.units Frame.probes l) (hdrained : v.Drained)

theorem Stack.kind (h : Stack v l) : Stack.Kind v l := by
  cases h with
  | calls hl =>
    obtain ⟨hd, hr⟩ := flags_of_above fun f hf => .inl (hl f hf)
    exact .other hd hr (held_of_inert hl)
  | poll hf => rcases hf with rfl | rfl <;> exact .other rfl rfl rfl
  | request => exact .other rfl rfl rfl
  | @dispatch top ps htop _ _ hclosed =>
    obtain ⟨hd, hr⟩ : dispatching top = false ∧ reading top = false := flags_of_above fun f hf =>
      .of_dispatch (htop f hf)
    refine .dispatch ?_ ?_ (by simp [Frame.polls]) (by simp [Frame.dispatches]) fun h => ?_
    · rw [dispatching_append, hd]; rfl
    · rw [reading_append, hr]; rfl
    · have hnil := hclosed (.inr h)
      rw [held_append] at hnil ⊢
      exact hnil
  | @done top htop =>
    obtain ⟨hd, hr⟩ : dispatching top = false ∧ reading top = false := flags_of_above fun f hf =>
      .of_done (htop f hf)
    refine .other ?_ ?_ ?_
    · rw [dispatching_append, hd]; rfl
    · rw [reading_append, hr]; rfl
    · refine List.flatMap_eq_nil_iff.2 fun f hf => ?_
      rcases List.mem_append.1 hf with hf | hf
      · rcases htop f hf with h | rfl
        · exact Frame.messages_of_inert h
        · rfl
      · rw [List.mem_singleton.1 hf]; rfl
  | @tidy top htop _ =>
    obtain ⟨hd, hr⟩ : dispatching top = false ∧ reading top = false := flags_of_above fun f hf =>
      .of_tidy (htop f hf)
    refine .other ?_ ?_ ?_
    · rw [dispatching_append, hd]; rfl
    · rw [reading_append, hr]; rfl
    · rw [held_append, held_of_tidies htop]; rfl
  | probe => exact .other rfl rfl rfl
  | @read top t _ _ hdrained htop =>
    obtain ⟨hd, hr⟩ : dispatching top = false ∧ reading top = false := flags_of_above fun f hf =>
      .of_read (htop f hf)
    refine .read ?_ ?_ (by simp [Frame.probes]) hdrained
    · rw [dispatching_append, hd]; rfl
    · rw [reading_append, hr]; rfl

/-- The frames below the innermost one, where a goroutine stands at its base. -/
def Frame.below : Frame → Option (List Frame)
  | .pollLock | .pollCheck | .pollRequest | .probe _ | .read _ => some []
  | .onData _ => some [.pollDone]
  | _ => none

theorem Frame.Above.below (hf : f.Above) : f.below = none := by
  rcases hf with hf | ⟨t, p, rfl | rfl⟩ | rfl | hf | rfl | rfl
  · cases f <;> simp_all [Frame.inert, Frame.below]
  · rfl
  · rfl
  · rfl
  · cases f <;> simp_all [Frame.tidies, Frame.below]
  · rfl
  · rfl

theorem Stack.below (h : Stack v (f :: rest)) {b : List Frame} (hb : f.below = some b) :
    rest = b := by
  have habove : ∀ {top base : List Frame}, f :: rest = top ++ base → (∀ g ∈ top, g.Above) →
      f :: rest = base := by
    intro top base heq htop
    cases top with
    | nil => exact heq
    | cons g top =>
      obtain ⟨rfl, -⟩ := List.cons.inj heq
      rw [(htop f (List.mem_cons_self ..)).below] at hb
      cases hb
  generalize hl : f :: rest = l at h
  cases h with
  | calls hall =>
    subst hl
    rw [Frame.Above.below (.inl (hall f (List.mem_cons_self ..)))] at hb
    cases hb
  | poll hf =>
    obtain ⟨rfl, rfl⟩ := List.cons.inj hl
    rcases hf with rfl | rfl <;> cases hb <;> rfl
  | request =>
    obtain ⟨rfl, rfl⟩ := List.cons.inj hl
    cases hb
    rfl
  | dispatch _ htop =>
    obtain ⟨rfl, rfl⟩ := List.cons.inj (habove hl fun g hg => .of_dispatch (htop g hg))
    cases hb
    rfl
  | done _ htop =>
    obtain ⟨rfl, rfl⟩ := List.cons.inj (habove hl fun g hg => .of_done (htop g hg))
    cases hb
  | tidy _ htop =>
    obtain ⟨rfl, rfl⟩ := List.cons.inj (habove hl fun g hg => .of_tidy (htop g hg))
    cases hb
    rfl
  | probe =>
    obtain ⟨rfl, rfl⟩ := List.cons.inj hl
    cases hb
    rfl
  | read _ _ _ _ htop =>
    obtain ⟨rfl, rfl⟩ := List.cons.inj (habove hl fun g hg => .of_read (htop g hg))
    cases hb
    rfl

/-- A packet is on its way from a transport whose packets go to the socket. -/
theorem Stack.onPacket (h : Stack v l) (hI : v.Sound) {t : Nat} {p : Packet}
    (hmem : .onPacket t p ∈ l) : (v.object t).onPacket = .socket := by
  have hcarries : ∀ u, Frame.Carries u (.onPacket t p) → t = u := by
    rintro u ⟨q, h | h⟩
    · injection h
    · cases h
  cases h with
  | calls hall => simpa [Frame.inert] using hall _ hmem
  | poll hf => rcases hf with rfl | rfl <;> simp at hmem
  | request => simp at hmem
  | dispatch _ htop =>
    rcases List.mem_append.1 hmem with hmem | hmem
    · rcases htop _ hmem with h | h | h | h
      · simp [Frame.inert] at h
      · rw [hcarries 0 h]; exact hI.onPacket
      · simp at h
      · simp at h
    · simp at hmem
  | done _ htop =>
    rcases List.mem_append.1 hmem with hmem | hmem
    · simpa [Frame.inert] using htop _ hmem
    · simp at hmem
  | tidy _ htop =>
    rcases List.mem_append.1 hmem with hmem | hmem
    · simpa [Frame.inert, Frame.tidies] using htop _ hmem
    · simp at hmem
  | probe => simp at hmem
  | @read _ u _ hpacket _ htop =>
    rcases List.mem_append.1 hmem with hmem | hmem
    · rcases htop _ hmem with h | h
      · simp [Frame.inert] at h
      · rw [hcarries u h]; exact hpacket
    · simp at hmem

/-- A frame at which a goroutine may stand at its base does not stand above the base. -/
theorem mem_base {top base : List Frame} (htop : ∀ g ∈ top, g.Above) {b : List Frame} (hb : f.below = some b)
    (hmem : f ∈ top ++ base) : f ∈ base := by
  rcases List.mem_append.1 hmem with hmem | hmem
  · rw [(htop f hmem).below] at hb
    cases hb
  · exact hmem

theorem Stack.request_running (h : Stack v l) (hmem : .pollRequest ∈ l) : ¬ v.Stopped := by
  cases h with
  | calls hall => simpa [Frame.inert] using hall _ hmem
  | poll hf => rcases hf with rfl | rfl <;> simp at hmem
  | request hrunning => exact hrunning
  | dispatch _ htop =>
    have hbase := mem_base (fun g hg => .of_dispatch (htop g hg)) rfl hmem
    simp at hbase
  | done _ htop =>
    have hbase := mem_base (fun g hg => .of_done (htop g hg)) rfl hmem
    simp at hbase
  | tidy _ htop =>
    have hbase := mem_base (fun g hg => .of_tidy (htop g hg)) rfl hmem
    simp at hbase
  | probe => simp at hmem
  | read _ _ _ _ htop =>
    have hbase := mem_base (fun g hg => .of_read (htop g hg)) rfl hmem
    simp at hbase

/-- A response reaches the goroutine that sent the poll, and the handshake goes on in an idle one. -/
theorem exec_arrives (h : exec w f a = some (w', fs)) :
    (∀ ps, a ≠ .handshake ps) ∧ ∀ r, a = .polled r → f = .pollRequest := by
  refine ⟨fun ps ha => ?_, fun r ha => ?_⟩ <;> subst ha <;> cases f
  case refine_1.probe pc | refine_2.probe pc =>
    cases pc with
    | beginPause t old => cases old <;> cases h
    | _ => cases h
  case refine_1.sendChunks chunks | refine_2.sendChunks chunks => cases chunks <;> cases h
  case refine_1.onData ps | refine_2.onData ps => cases ps <;> cases h
  case refine_2.pollRequest => rfl
  all_goals cases h

theorem exec_read_choice {t : Nat} (h : exec w (.read t) a = some (w', fs)) :
    a = .go ∨ a = .failed ∨ ∃ p, a = .frame p := by
  cases a with
  | go => exact .inl rfl
  | failed => exact .inr (.inl rfl)
  | frame p => exact .inr (.inr ⟨p, rfl⟩)
  | _ => cases h
/-! ## Probes that have not sent the upgrade packet -/

/-- From the dial to the upgrade packet. -/
def ProbeFrame.pending : ProbeFrame → Bool
  | .awaitPong _ | .pong _ | .detachOpen _ _ | .detachClose _ _ | .detachError _ _ | .drain _ _
  | .sendUpgrade _ _ => true
  | _ => false

/-- Whether a probe among the frames is pending. -/
def Frame.pending : Frame → Bool
  | .probe pc => pc.pending
  | _ => false

theorem execProbe_pending (h : execProbe w pc a = some (w', fs))
    (hfs : fs.any Frame.pending = true) : pc = .next ∧ a = .dialled ∨ pc.pending = true := by
  revert h
  fun_cases execProbe w pc a <;> intro h <;> cases h
  case case2 => exact .inl ⟨rfl, rfl⟩
  all_goals first | exact .inr rfl | cases hfs

theorem Handler.frames_pending {socket : Frame} (h : Handler) (t : Nat)
    (hs : socket.pending = false) : (h.frames socket t).any Frame.pending = false := by
  cases h with
  | socket => simp [Handler.frames, hs]
  | unset | probe => rfl

theorem execTransport_pending (h : execTransport w f a = some (w', fs)) :
    fs.any Frame.pending = false := by
  revert h
  fun_cases execTransport w f a <;> intro h <;> cases h
  case case3 | case4 =>
    unfold World.closeRest
    split <;> rfl
  case case12 | case14 | case15 => exact Handler.frames_pending _ _ rfl
  all_goals rfl

theorem exec_pending (h : exec w f a = some (w', fs)) (hfs : fs.any Frame.pending = true) :
    f = .probe .next ∧ a = .dialled ∨ f.pending = true := by
  have hnone : fs.any Frame.pending ≠ false := by
    rw [hfs]
    exact Bool.noConfusion
  cases runs_of_exec h with
  | probe h => exact (execProbe_pending h hfs).imp_left fun h => ⟨by rw [h.1], h.2⟩
  | flush h =>
    refine absurd ?_ hnone
    revert h
    fun_cases execFlush w f a <;> intro h <;> cases h <;> rfl
  | socket h =>
    refine absurd ?_ hnone
    revert h
    fun_cases execSocket w f a <;> intro h <;> cases h <;> rfl
  | transport h => exact absurd (execTransport_pending h) hnone
  | loop h =>
    refine absurd ?_ hnone
    revert h
    fun_cases execLoop w f a <;> intro h <;> cases h <;> rfl

/-- A probe becomes pending when the websocket is dialled. -/
theorem step_pending (h : frames.step w l a = some (w', l')) (hl' : l'.any Frame.pending = true) :
    l.head? = some (.probe .next) ∧ a = .dialled ∨ l.any Frame.pending = true := by
  cases l with
  | nil =>
    have hstart : start w a = some (w', l') → l'.any Frame.pending = false := by
      fun_cases start w a <;> intro h <;> cases h <;> rfl
    rw [hstart h] at hl'
    cases hl'
  | cons f rest =>
    obtain ⟨fs, hfs, rfl⟩ := Frames.step_cons h
    rw [List.any_append, Bool.or_eq_true] at hl'
    rw [List.any_cons, Bool.or_eq_true]
    rcases hl' with hl' | hl'
    · rcases exec_pending hfs hl' with ⟨rfl, ha⟩ | hf
      · exact .inl ⟨rfl, ha⟩
      · exact .inr (.inl hf)
    · exact .inr (.inr hl')
theorem probes_of_pending (h : l.any Frame.pending = true) : 0 < Frames.units Frame.probes l := by
  obtain ⟨f, hf, hpending⟩ := List.any_eq_true.1 h
  cases f with
  | probe pc => exact Frames.weight_le_units Frame.probes hf
  | _ => cases hpending

/-! ## The messages of a pool -/

/-- The dispatch of a response holds the messages `D`, the read loop the messages `R`. -/
structure Carried (T : Nat → List Frame) (D R : List Packet) : Prop where
  data : ∀ i, dispatching (T i) = true → held (T i) = D
  read : ∀ i, reading (T i) = true → held (T i) = R
  noData : (∀ i, dispatching (T i) = false) → D = []
  noRead : (∀ i, reading (T i) = false) → R = []

theorem Carried.data_nil {T : Nat → List Frame} {D R : List Packet} {i : Nat} (hT : Carried T D R)
    (hi : dispatching (T i) = false) (h : ∀ j, j ≠ i → dispatching (T j) = false) : D = [] :=
  hT.noData fun j => if hj : j = i then hj ▸ hi else h j hj

theorem Carried.read_nil {T : Nat → List Frame} {D R : List Packet} {i : Nat} (hT : Carried T D R)
    (hi : reading (T i) = false) (h : ∀ j, j ≠ i → reading (T j) = false) : R = [] :=
  hT.noRead fun j => if hj : j = i then hj ▸ hi else h j hj

theorem Carried.update {T : Nat → List Frame} {D R D' R' : List Packet} {i : Nat}
    (hT : Carried T D R) (hd : dispatching l' = true → held l' = D')
    (hr : reading l' = true → held l' = R')
    (hdo : ∀ j, j ≠ i → dispatching (T j) = true → D' = D)
    (hro : ∀ j, j ≠ i → reading (T j) = true → R' = R)
    (hdn : dispatching l' = false → (∀ j, j ≠ i → dispatching (T j) = false) → D' = [])
    (hrn : reading l' = false → (∀ j, j ≠ i → reading (T j) = false) → R' = []) :
    Carried (Function.update T i l') D' R' := by
  refine ⟨fun j => ?_, fun j => ?_, fun h => ?_, fun h => ?_⟩
  · by_cases hj : j = i
    · subst hj; simpa using hd
    · simp only [Function.update_of_ne hj]
      exact fun h => (hT.data j h).trans (hdo j hj h).symm
  · by_cases hj : j = i
    · subst hj; simpa using hr
    · simp only [Function.update_of_ne hj]
      exact fun h => (hT.read j h).trans (hro j hj h).symm
  · exact hdn (by simpa using h i) fun j hj => by simpa [hj] using h j
  · exact hrn (by simpa using h i) fun j hj => by simpa [hj] using h j

/-- What a section of a goroutine with the stack `l` does to the messages on their way. -/
inductive Transfer (l : List Frame) (a : Choice) (D R D' R' : List Packet) (silent : Prop) : Prop
  | dispatch (ha : arrives l a = false) (hD : D = handles l ++ D') (hR : R' = R)
  | read (ha : arrives l a = false) (hsilent : silent) (hD : D = []) (hD' : D' = [])
      (hR : R = handles l ++ R')
  | respond {ps : List Packet}
      (ha : l = [.pollRequest] ∧ a = .polled (.body (some ps)) ∨ l = [] ∧ a = .handshake ps)
      (hD : D = []) (hD' : D' = messages ps) (hR : R' = R)
  | receive {t : Nat} {p : Packet} (hl : l = [.read t]) (ha : a = .frame (some p)) (hD : D' = D)
      (hR : R = []) (hR' : R' = messages [p])

theorem handles_cons (f : Frame) (rest : List Frame) : handles (f :: rest) = handles [f] := by
  cases f <;> rfl

theorem arrives_cons (f : Frame) (rest : List Frame) (a : Choice) :
    arrives (f :: rest) a = arrives [f] a := by
  cases f
  case pollRequest | read => unfold arrives; split <;> simp_all
  all_goals rfl

section

variable {c : Pool World (List Frame)} {D R : List Packet}

/-- There is one dispatch of a response. -/
theorem dispatching_unique (h : frames.program.Reach Steady c) {i j : Nat} (hij : j ≠ i)
    (hi : 0 < Frames.units Frame.polls (c.thread i)) : dispatching (c.thread j) = false := by
  have hcount := (reach_counters h {i, j}).1
  rw [Finset.sum_pair hij.symm] at hcount
  cases ((reach_steady h).2 j).kind with
  | other hd => exact hd
  | dispatch _ _ hpolls => omega
  | read hd => exact hd

/-- There is one probe. -/
theorem pending_unique (h : frames.program.Reach Steady c) {i j : Nat} (hij : j ≠ i)
    (hi : 0 < Frames.units Frame.probes (c.thread i)) : (c.thread j).any Frame.pending = false := by
  have hcount := (reach_counters h {i, j}).2.2.2
  rw [Finset.sum_pair hij.symm] at hcount
  by_contra hj
  have hpos := probes_of_pending (Bool.eq_true_of_not_eq_false hj)
  omega

/-- There is one read loop, and no probe beside it. -/
theorem reading_unique (h : frames.program.Reach Steady c) {i j : Nat} (hij : j ≠ i)
    (hi : 0 < Frames.units Frame.probes (c.thread i)) : reading (c.thread j) = false := by
  have hcount := (reach_counters h {i, j}).2.2.2
  rw [Finset.sum_pair hij.symm] at hcount
  cases ((reach_steady h).2 j).kind with
  | other _ hr => exact hr
  | dispatch _ hr => exact hr
  | read _ _ hprobes => omega

/-- **The polling transport is drained.** When the read loop of the websocket runs, no poll awaits a
    response and no response holds a message. -/
theorem drained (h : frames.program.Reach Steady c) (hT : Carried c.thread D R) {i : Nat}
    (hi : reading (c.thread i) = true) : D = [] ∧ ∀ j, .pollRequest ∉ c.thread j := by
  obtain ⟨-, hJ⟩ := reach_steady h
  have hdrained : c.shared.view.Drained := by
    cases (hJ i).kind with
    | other _ hr => simp [hr] at hi
    | dispatch _ hr => simp [hr] at hi
    | read _ _ _ hdrained => exact hdrained
  refine ⟨?_, fun j hmem => (hJ j).request_running hmem hdrained.stopped⟩
  by_cases hnone : ∀ j, dispatching (c.thread j) = false
  · exact hT.noData hnone
  · obtain ⟨j, hj⟩ := not_forall.1 hnone
    have hj : dispatching (c.thread j) = true := by simpa using hj
    cases (hJ j).kind with
    | other hd => simp [hd] at hj
    | read hd => simp [hd] at hj
    | dispatch _ _ _ hdone hclosed =>
      rw [← hT.data j hj]
      rcases hdrained with hs | ⟨-, hwg⟩
      · exact hclosed hs
      · -- a dispatch that is not over is counted by `pollWG`
        have hcount := (reach_counters h {j}).2.2.1
        rw [Finset.sum_singleton] at hcount
        have hzero : c.shared.pollWG = 0 := hwg
        omega

/-- A call taken up by an idle goroutine: only the end of the handshake brings packets. -/
theorem start_transfer (h : frames.program.Reach Steady c) {i : Nat} (hi : c.thread i = [])
    {a : Choice} {w' : World} (hx : start c.shared a = some (w', l')) (hT : Carried c.thread D R) :
    ∃ D' R', Carried (Function.update c.thread i l') D' R' ∧
      Transfer [] a D R D' R' (∀ j, .pollRequest ∉ c.thread j) := by
  have hkeep : dispatching l' = false → reading l' = false →
      Carried (Function.update c.thread i l') D R := fun hd hr =>
    hT.update (by simp [hd]) (by simp [hr]) (fun _ _ _ => rfl) (fun _ _ _ => rfl)
      (fun _ h => hT.data_nil (by rw [hi]; rfl) h) (fun _ h => hT.read_nil (by rw [hi]; rfl) h)
  revert hx
  fun_cases start c.shared a <;> intro hx <;> cases hx
  case case3 ps hd =>
    -- as long as the handshake's dispatch is pending, nothing else is dispatched
    have hnone : ∀ j, dispatching (c.thread j) = false := by
      intro j
      have hcount := (reach_counters h {j}).1
      rw [Finset.sum_singleton, hd.1, Bool.toNat_true] at hcount
      cases ((reach_steady h).2 j).kind with
      | other hd => exact hd
      | dispatch _ _ hpolls => omega
      | read hd => exact hd
    refine ⟨messages ps, R, hT.update (fun _ => ?_) (fun hr => ?_) (fun j _ hj => ?_)
      (fun _ _ _ => rfl) (fun hd => ?_)
      (fun _ h => hT.read_nil (by rw [hi]; rfl) h),
      .respond (.inr ⟨rfl, rfl⟩) (hT.noData hnone) rfl rfl⟩
    · simp [held, Frame.messages]
    · simp [reading, Frame.isRead] at hr
    · simp [hnone j] at hj
    · simp [dispatching, Frame.isData] at hd
  all_goals exact ⟨D, R, hkeep rfl rfl, .dispatch rfl rfl rfl⟩

/-- A section that leaves the messages of its goroutine as they are. -/
theorem Carried.same {T : Nat → List Frame} {i : Nat} (hT : Carried T D R)
    (hd : dispatching l' = dispatching (T i)) (hr : reading l' = reading (T i))
    (hheld : held l' = held (T i)) : Carried (Function.update T i l') D R := by
  refine hT.update (fun h => ?_) (fun h => ?_) (fun _ _ _ => rfl) (fun _ _ _ => rfl)
    (fun hn hj => hT.data_nil (hd.symm.trans hn) hj) (fun hn hj => hT.read_nil (hr.symm.trans hn) hj)
  · rw [hheld]
    exact hT.data i (hd.symm.trans h)
  · rw [hheld]
    exact hT.read i (hr.symm.trans h)

/-- The message a goroutine holds is handed to the message handler. -/
theorem handle_transfer (h : frames.program.Reach Steady c) {i : Nat} {p : Packet} {a : Choice}
    (hi : c.thread i = .handlePacket p :: rest) (hheld : held fs = [])
    (hd : dispatching fs = false) (hr : reading fs = false) (hT : Carried c.thread D R) :
    ∃ D' R', Carried (Function.update c.thread i (fs ++ rest)) D' R' ∧
      Transfer (.handlePacket p :: rest) a D R D' R' (∀ j, .pollRequest ∉ c.thread j) := by
  have hl : held (c.thread i) = messages [p] ++ held rest := by
    rw [hi]
    rfl
  have hl' : held (fs ++ rest) = held rest := by
    rw [held_append, hheld, List.nil_append]
  have hd' : dispatching (fs ++ rest) = dispatching (c.thread i) := by
    rw [dispatching_append, hd, hi]
    rfl
  have hr' : reading (fs ++ rest) = reading (c.thread i) := by
    rw [reading_append, hr, hi]
    rfl
  have ha : arrives (.handlePacket p :: rest) a = false := by
    cases a <;> rfl
  cases ((reach_steady h).2 i).kind with
  | other hdi hri hnil =>
    have hnone : messages [p] = [] := (List.append_eq_nil_iff.1 (hl.symm.trans hnil)).1
    refine ⟨D, R, hT.same hd' hr' ?_, .dispatch ha ?_ rfl⟩
    · rw [hl', hl, hnone, List.nil_append]
    · show D = messages [p] ++ D
      rw [hnone, List.nil_append]
  | dispatch hdi hri hpolls =>
    refine ⟨held rest, R, hT.update (fun _ => hl') (fun hr => ?_) (fun j hj hdj => ?_)
      (fun _ _ _ => rfl) (fun hn => ?_) (fun _ hj => ?_), .dispatch ha ?_ rfl⟩
    · rw [hr', hri] at hr
      cases hr
    · rw [dispatching_unique h hj hpolls] at hdj
      cases hdj
    · rw [hd', hdi] at hn
      cases hn
    · exact hT.read_nil hri hj
    · rw [← hT.data i hdi, hl]
      rfl
  | read hdi hri hprobes =>
    obtain ⟨hD, hsilent⟩ := drained h hT hri
    refine ⟨[], held rest, hT.update (fun hd => ?_) (fun _ => hl') (fun _ _ _ => hD.symm)
      (fun j hj hrj => ?_) (fun _ _ => rfl) (fun hn => ?_), .read ha hsilent hD rfl ?_⟩
    · rw [hd', hdi] at hd
      cases hd
    · rw [reading_unique h hj hprobes] at hrj
      cases hrj
    · rw [hr', hri] at hn
      cases hn
    · rw [← hT.read i hri, hl]
      rfl

/-- The response to a poll is taken in: nothing else is dispatched. -/
theorem respond_transfer (h : frames.program.Reach Steady c) {i : Nat}
    (hi : c.thread i = [.pollRequest]) (ps : List Packet) (hT : Carried c.thread D R) :
    ∃ D' R', Carried (Function.update c.thread i [.onData ps, .pollDone]) D' R' ∧
      Transfer [.pollRequest] (.polled (.body (some ps))) D R D' R'
        (∀ j, .pollRequest ∉ c.thread j) := by
  have hnone : ∀ j, dispatching (c.thread j) = false := by
    intro j
    by_cases hj : j = i
    · rw [hj, hi]
      rfl
    · exact dispatching_unique h hj (by rw [hi]; simp [Frame.polls])
  refine ⟨messages ps, R, hT.update (fun _ => ?_) (fun hr => ?_) (fun j _ hdj => ?_)
    (fun _ _ _ => rfl) (fun hd => ?_) (fun _ hj => ?_),
    .respond (.inl ⟨rfl, rfl⟩) (hT.noData hnone) rfl rfl⟩
  · simp [held, Frame.messages]
  · simp [reading, Frame.isRead] at hr
  · rw [hnone j] at hdj
    cases hdj
  · simp [dispatching, Frame.isData] at hd
  · exact hT.read_nil (by rw [hi]; rfl) hj

/-- A frame of the websocket is taken in: the read loop held nothing. -/
theorem receive_transfer (h : frames.program.Reach Steady c) {i t : Nat}
    (hi : c.thread i = [.read t]) (p : Packet) (hT : Carried c.thread D R) :
    ∃ D' R', Carried (Function.update c.thread i [.onPacket t p, .read t]) D' R' ∧
      Transfer [.read t] (.frame (some p)) D R D' R' (∀ j, .pollRequest ∉ c.thread j) := by
  have hR : R = [] := by
    rw [← hT.read i (by rw [hi]; rfl), hi]
    rfl
  refine ⟨D, messages [p], hT.update (fun hd => ?_) (fun _ => ?_) (fun _ _ _ => rfl)
    (fun j hj hrj => ?_) (fun _ hj => ?_) (fun hr => ?_), .receive rfl rfl rfl hR rfl⟩
  · simp [dispatching, Frame.isData] at hd
  · simp [held, Frame.messages]
  · rw [reading_unique h hj (by rw [hi]; simp [Frame.probes])] at hrj
    cases hrj
  · exact hT.data_nil (by rw [hi]; rfl) hj
  · simp [reading, Frame.isRead] at hr

/-- The websocket is adopted: the read loop begins, holding nothing. -/
theorem adopt_transfer (h : frames.program.Reach Steady c) {i t : Nat}
    (hi : c.thread i = [.probe (.bindClose t)]) (a : Choice) (hT : Carried c.thread D R) :
    ∃ D' R', Carried (Function.update c.thread i [.beginFlush, .read t]) D' R' ∧
      Transfer [.probe (.bindClose t)] a D R D' R' (∀ j, .pollRequest ∉ c.thread j) := by
  have hnone : ∀ j, reading (c.thread j) = false := by
    intro j
    by_cases hj : j = i
    · rw [hj, hi]
      rfl
    · exact reading_unique h hj (by rw [hi]; simp [Frame.probes])
  refine ⟨D, R, hT.update (fun hd => ?_) (fun _ => ?_) (fun _ _ _ => rfl) (fun _ _ _ => rfl)
    (fun _ hj => ?_) (fun _ _ => hT.noRead hnone), .dispatch ?_ rfl rfl⟩
  · simp [dispatching, Frame.isData] at hd
  · rw [hT.noRead hnone]
    rfl
  · exact hT.data_nil (by rw [hi]; rfl) hj
  · cases a <;> rfl

/-- A goroutine that held nothing dispatches, or reads, no more. -/
theorem Carried.leave {T : Nat → List Frame} {i : Nat} (hT : Carried T D R)
    (hd' : dispatching l' = false) (hr' : reading l' = false) (hheld : held (T i) = []) :
    Carried (Function.update T i l') D R := by
  refine hT.update (fun h => ?_) (fun h => ?_) (fun _ _ _ => rfl) (fun _ _ _ => rfl)
    (fun _ hj => ?_) (fun _ hj => ?_)
  · rw [hd'] at h
    cases h
  · rw [hr'] at h
    cases h
  · by_cases hd : dispatching (T i) = true
    · exact (hT.data i hd).symm.trans hheld
    · exact hT.data_nil (by simpa using hd) hj
  · by_cases hr : reading (T i) = true
    · exact (hT.read i hr).symm.trans hheld
    · exact hT.read_nil (by simpa using hr) hj

/-- **Messages on their way.** In a steady run every section hands at most the next message to the
    message handler: from the dispatch of a response, or from the read loop once there is nothing
    left to come from the polling transport. -/
theorem reach_transfer (h : frames.program.Reach Steady c) {i : Nat} {a : Choice} {w' : World}
    (hst : Steady c.shared (c.thread i) a)
    (hx : frames.step c.shared (c.thread i) a = some (w', l')) (hT : Carried c.thread D R) :
    ∃ D' R', Carried (Function.update c.thread i l') D' R' ∧
      Transfer (c.thread i) a D R D' R' (∀ j, .pollRequest ∉ c.thread j) := by
  obtain ⟨⟨-, hsound⟩, hJ⟩ := reach_steady h
  cases hi : c.thread i with
  | nil =>
    rw [hi] at hx
    exact start_transfer h hi hx hT
  | cons f rest =>
    rw [hi] at hx hst
    obtain ⟨fs, hfs, rfl⟩ := Frames.step_cons hx
    have hstack : Stack c.shared.view (f :: rest) := hi ▸ hJ i
    cases exec_passage hfs with
    | keep hheld hdata hread hhandles harrives =>
      refine ⟨D, R, hT.same ?_ ?_ ?_, .dispatch ?_ ?_ rfl⟩
      · rw [dispatching_append, hdata, hi]
        rfl
      · rw [reading_append, hread, hi]
        rfl
      · rw [held_append, hheld, hi]
        rfl
      · rw [arrives_cons, harrives]
      · rw [handles_cons, hhandles, List.nil_append]
    | handle hheld hd hr => exact handle_transfer h hi hheld hd hr hT
    | @drop t p _ hdrop =>
      exact absurd (hstack.onPacket hsound (List.mem_cons_self ..)) hdrop
    | @respond ps =>
      obtain rfl := hstack.below rfl
      exact respond_transfer h hi ps hT
    | finish =>
      obtain rfl := hstack.below rfl
      exact ⟨D, R, hT.leave rfl rfl (by rw [hi]; rfl), .dispatch (by cases a <;> rfl) rfl rfl⟩
    | stop =>
      obtain rfl := hstack.below rfl
      exact ⟨D, R, hT.leave rfl rfl (by rw [hi]; rfl), .dispatch rfl rfl rfl⟩
    | receive =>
      obtain rfl := hstack.below rfl
      exact receive_transfer h hi _ hT
    | @fail t _ _ hfail =>
      rcases hst.reads t rfl with rfl | ⟨p, rfl, hp⟩
      · exact absurd rfl hfail.1
      · exact absurd (hfail.2 p rfl) hp
    | adopt =>
      obtain rfl := hstack.below rfl
      exact adopt_transfer h hi a hT

end

end EngineIo.Client.Switchover
