import SsrBackend.Relay.Fidelity
import SsrBackend.Relay.ServedUser
import SsrBackend.Ssr.SessionDirections

/-!
The way back of a connection. What is handed to the client's socket is one wire:
the send IV and then the packets of everything the target has sent, in order. A
write that fails cuts that wire short, and a client that reads what has come
through gets a prefix of the target's bytes, all of them while no write has failed.
-/

namespace SsrBackend

open Call Resumable

variable {P : Primitives}

theorem ClientReceiver.clientRecvAll_append (c : ClientReceiver) (xs ys : List (List UInt8)) :
    (clientRecvAll P c (xs ++ ys)).1 =
      (clientRecvAll P c xs).1 ++ (clientRecvAll P (clientRecvAll P c xs).2 ys).1 := by
  induction xs generalizing c with
  | nil => rfl
  | cons x xs ih => exact congrArg (((clientRecv P x).run c).1 :: ·) (ih _)

namespace ServerSession

/-- The packets of a list of plaintexts, under one keystream. -/
def downPackets (P : Primitives) (s : ServerSession) (userKey : List UInt8)
    (texts : List (List UInt8)) : List UInt8 × StreamCipher :=
  (s.cipher.stream P s.masterKey s.sendIv).process P
    (packUnits P userKey 1 (texts.flatMap serverUnits)).flatten

/-- The wire that a session makes of a list of plaintexts. -/
def downWire (P : Primitives) (s : ServerSession) (userKey : List UInt8)
    (texts : List (List UInt8)) : List UInt8 :=
  if texts = [] then [] else s.sendIv ++ (s.downPackets P userKey texts).1

/-- The send side of `t`, which was `s` when it was fresh and has sent `texts` since then. -/
structure Sent (P : Primitives) (s : ServerSession) (userKey : List UInt8)
    (texts : List (List UInt8)) (t : ServerSession) : Prop where
  accepted : ∃ protocol, t.Accepted protocol ∧ protocol.userKey = userKey ∧
    protocol.packId = 1 + UInt32.ofNat (texts.flatMap serverUnits).length
  encryptor_eq : t.encryptor = (s.downPackets P userKey texts).2
  sendIv_eq : t.sendIv = s.sendIv
  emitted_eq : t.sendIvEmitted = !texts.isEmpty

variable {s t : ServerSession} {userKey : List UInt8} {texts : List (List UInt8)}

theorem Sent.decrypt (h : Sent P s userKey texts t) (raw : List UInt8) :
    Sent P s userKey texts ((decrypt P raw).run t).2 := by
  obtain ⟨protocol, haccepted, hkey, hid⟩ := h.accepted
  obtain ⟨decryptor, recvId, recvBuf, hstate⟩ := decrypt_accepted (P := P) haccepted raw
  rw [hstate]
  exact ⟨⟨_, ⟨rfl, rfl, haccepted.header⟩, hkey, hid⟩, h.encryptor_eq, h.sendIv_eq, h.emitted_eq⟩

theorem downPackets_append (s : ServerSession) (userKey text : List UInt8)
    (texts : List (List UInt8)) :
    s.downPackets P userKey (texts ++ [text]) =
      let rest := (s.downPackets P userKey texts).2.process P (packUnits P userKey
        (1 + UInt32.ofNat (texts.flatMap serverUnits).length) (serverUnits text)).flatten
      ((s.downPackets P userKey texts).1 ++ rest.1, rest.2) := by
  have hunits : (texts ++ [text]).flatMap serverUnits =
      texts.flatMap serverUnits ++ serverUnits text := by
    rw [List.flatMap_append, List.flatMap_cons, List.flatMap_nil, List.append_nil]
  rw [downPackets, hunits, packUnits_append, List.flatten_append, StreamCipher.process_append]
  rfl

/-- A call of `encrypt` succeeds and continues the wire. -/
theorem Sent.encrypt (h : Sent P s userKey texts t) (text : List UInt8) :
    ∃ wire, ((encrypt P text).run t).1 = .ok wire ∧
      s.downWire P userKey (texts ++ [text]) = s.downWire P userKey texts ++ wire ∧
      Sent P s userKey (texts ++ [text]) ((encrypt P text).run t).2 := by
  obtain ⟨protocol, haccepted, rfl, hid⟩ := h.accepted
  have hnew : texts ++ [text] ≠ [] := List.append_ne_nil_of_right_ne_nil _ (by simp)
  have hpackets := downPackets_append (P := P) s protocol.userKey text texts
  rw [encrypt_of_protocol haccepted.protocol_eq]
  refine ⟨_, rfl, ?_, ⟨_, ⟨haccepted.opened, rfl, haccepted.header⟩, rfl, ?_⟩, ?_, h.sendIv_eq, ?_⟩
  · rw [downWire, if_neg hnew, hpackets, downWire, sealed, h.encryptor_eq, hid, h.sendIv_eq,
      h.emitted_eq]
    cases texts with
    | nil => simp [downPackets, packUnits]
    | cons first texts => simp
  · dsimp only
    rw [hid, List.flatMap_append, List.length_append, UInt32.ofNat_add, UInt32.add_assoc,
      List.flatMap_cons, List.flatMap_nil, List.append_nil]
  · dsimp only
    rw [hpackets, sealed, h.encryptor_eq, hid]
  · cases texts with
    | nil => rfl
    | cons first texts => rfl

/-- The session as the handshake leaves it. -/
structure Idle (P : Primitives) (s t : ServerSession) : Prop where
  unsent : t.Unsent P
  masterKey_length : t.masterKey.length = t.cipher.keyLen
  cipher_eq : t.cipher = s.cipher
  masterKey_eq : t.masterKey = s.masterKey
  sendIv_eq : t.sendIv = s.sendIv

theorem Idle.decrypt (h : Idle P s t) (raw : List UInt8) : Idle P s ((decrypt P raw).run t).2 := by
  have hunsent := decrypt_unsent h.masterKey_length h.unsent raw
  obtain ⟨recvIvBuf, decryptor, protocol, hframe⟩ := decrypt_frame (P := P) h.masterKey_length raw
  rw [hframe] at hunsent ⊢
  exact ⟨hunsent, h.masterKey_length, h.cipher_eq, h.masterKey_eq, h.sendIv_eq⟩

theorem Idle.sent (h : Idle P s t) {protocol : AuthAes128Md5} (haccepted : t.Accepted protocol) :
    Sent P s protocol.userKey [] t := by
  obtain ⟨-, -, hone⟩ := h.unsent.protocol protocol haccepted.protocol_eq
  refine ⟨⟨protocol, haccepted, rfl, hone⟩, ?_, h.sendIv_eq, h.unsent.not_emitted⟩
  rw [h.unsent.encryptor_eq, h.cipher_eq, h.masterKey_eq, h.sendIv_eq, downPackets]
  exact (congrArg Prod.snd (StreamCipher.process_nil P _)).symm

/-- A client that reads a part of the wire gets a part of the plaintexts, in order. -/
theorem client_reads_prefix (hs : s.Fresh P) (userKey : List UInt8) (texts : List (List UInt8))
    (recvId : UInt32) {segs : List (List UInt8)}
    (h : segs.flatten <+: s.downWire P userKey texts) :
    ∃ got : List (List UInt8), (ClientReceiver.clientRecvAll P
        (ClientReceiver.start s.cipher s.masterKey recvId) segs).1 = got.map .ok ∧
      got.flatten <+: texts.flatten ∧
      (segs.flatten = s.downWire P userKey texts → got.flatten = texts.flatten) := by
  have hwhole : ∀ all : List (List UInt8), all.flatten = s.downWire P userKey texts →
      ∃ got : List (List UInt8), (ClientReceiver.clientRecvAll P
          (ClientReceiver.start s.cipher s.masterKey recvId) all).1 = got.map .ok ∧
        got.flatten = texts.flatten := by
    intro all hall
    apply client_reads hs.masterKey_length userKey
    rw [hall, downWire]
    by_cases hnone : texts = []
    · have hpos : ([] : List UInt8).length < s.cipher.ivLen := s.cipher.ivLen_pos
      rw [if_pos hnone, hnone, ClientReceiver.plain_of_lt s.masterKey hpos]
      rfl
    · rw [if_neg hnone, ClientReceiver.plain, ← hs.sendIv_length, List.take_left, List.drop_left,
        downPackets, StreamCipher.process_involutive]
  obtain ⟨rest, hrest⟩ := h
  obtain ⟨got, hgot, hall⟩ := hwhole (segs ++ [rest]) (by
    rw [List.flatten_append, List.flatten_singleton, hrest])
  rw [ClientReceiver.clientRecvAll_append] at hgot
  obtain ⟨front, back, rfl, hfront, -⟩ := List.map_eq_append_iff.mp hgot.symm
  refine ⟨front, hfront.symm, ?_, ?_⟩
  · rw [← hall, List.flatten_append]
    exact List.prefix_append _ _
  · intro hsame
    obtain ⟨got', hgot', hall'⟩ := hwhole segs hsame
    have hinj : Function.Injective (Outcome.ok : List UInt8 → Outcome CodecError (List UInt8)) := by
      intro a b hab
      exact Outcome.ok.inj hab
    rw [← hfront] at hgot'
    rw [(List.map_injective_iff.mpr hinj) hgot', hall']

end ServerSession

namespace Action

def sentDown? : Action → Option (List UInt8 × Nat)
  | writeClient data sent => some (data, sent)
  | _ => none

def downloaded? : Action → Option Nat
  | recordDownload _ bytes => some bytes
  | _ => none

/-- Nothing for the client. -/
def Upward : Action → Prop
  | writeClient _ _ => False
  | recordDownload _ _ => False
  | _ => True

end Action

namespace Connection

open StreamTask ServerSession

/-- The writes to the client: what was handed over, and how much of it was sent. -/
def clientWrites (log : List Action) : List (List UInt8 × Nat) := log.filterMap Action.sentDown?

/-- The bytes handed to the client's socket. -/
def handed (log : List Action) : List UInt8 := (clientWrites log).flatMap Prod.fst

/-- The bytes that have reached the client. -/
def delivered (log : List Action) : List UInt8 := (clientWrites log).flatMap fun w => w.1.take w.2

def downloads (log : List Action) : List Nat := log.filterMap Action.downloaded?

section Views

variable (xs ys : List Action)

@[simp] theorem clientWrites_append :
    clientWrites (xs ++ ys) = clientWrites xs ++ clientWrites ys := List.filterMap_append

@[simp] theorem handed_append : handed (xs ++ ys) = handed xs ++ handed ys := by
  rw [handed, clientWrites_append, List.flatMap_append]
  rfl

@[simp] theorem delivered_append : delivered (xs ++ ys) = delivered xs ++ delivered ys := by
  rw [delivered, clientWrites_append, List.flatMap_append]
  rfl

@[simp] theorem downloads_append : downloads (xs ++ ys) = downloads xs ++ downloads ys :=
  List.filterMap_append

variable {xs}

theorem views_upward (h : ∀ action ∈ xs, action.Upward) :
    clientWrites xs = [] ∧ downloads xs = [] := by
  refine ⟨List.filterMap_eq_nil_iff.mpr ?_, List.filterMap_eq_nil_iff.mpr ?_⟩
  · intro action hmem
    have hup := h action hmem
    cases action with
    | writeClient data sent => exact hup.elim
    | _ => rfl
  · intro action hmem
    have hup := h action hmem
    cases action with
    | recordDownload counters bytes => exact hup.elim
    | _ => rfl

end Views

/-! ### The turns that do not concern the way back -/

section Upward

variable {ctx : StreamContext}

/-- A part of the task that does nothing for the client, with a property of its results. -/
abbrev Ascends {α : Type} (V : α → Prop) (task : StreamTask α) : Prop :=
  Does (Appends Action.Upward) (fun _ => True) V task

theorem upward_chains : Chains (Appends Action.Upward) := appends_chains _

theorem writeRemote_ascends (data : List UInt8) (write : Delivery) :
    Ascends (fun _ => True) (writeRemote data write) := by
  cases write with
  | done => exact perform_does _ trivial
  | failed sent reason =>
      exact .bind upward_chains (perform_does _ trivial) fun _ _ => .bail upward_chains trivial
  | timedOut sent =>
      exact .bind upward_chains (perform_does _ trivial) fun _ _ => .bail upward_chains trivial

theorem lookupCounters_ascends (userId : Nat) :
    Ascends (fun _ => True) (lookupCounters ctx userId) := by
  rw [lookupCounters]
  cases ctx.tables.countersByUser[userId]? with
  | some counters => exact .pure upward_chains trivial
  | none =>
      cases ctx.tables.countersByUser[ctx.fallbackUserId]? with
      | some counters => exact .pure upward_chains trivial
      | none => exact .bail upward_chains trivial

theorem acquireSlot_ascends (world : World) (userId : Nat) (policy : Option UserPolicy) :
    Ascends (fun _ => True) (acquireSlot ctx world userId policy) := by
  cases policy with
  | none => exact .pure upward_chains trivial
  | some policy =>
      rw [acquireSlot]
      by_cases hlimit : ctx.enforcement.connLimit ∧ 0 < policy.connLimit
      · rw [if_pos hlimit]
        cases ctx.tables.connsByUser[userId]? with
        | none => exact .bail upward_chains trivial
        | some set =>
            dsimp only
            cases ConnGuard.acquire (world.ips set) ctx.peerIp policy.connLimit with
            | none => exact .pure upward_chains trivial
            | some guard =>
                exact .bind upward_chains (perform_does _ trivial)
                  fun _ _ => .pure upward_chains trivial
      · rw [if_neg hlimit]
        exact .pure upward_chains trivial

theorem auditInitial_ascends (world : World) (userId : Nat) (initial : List UInt8) :
    Ascends (fun _ => True) (auditInitial ctx world userId initial) := by
  apply Does.bind upward_chains (perform_does (.emit _) trivial)
  intro _ _
  apply Does.bind upward_chains (perform_does (.scan world.rules initial) trivial)
  intro _ _
  apply Does.bind upward_chains
  · apply modify_does
    intro action hmem
    obtain ⟨event, -, rfl⟩ := List.mem_map.mp hmem
    trivial
  · intro _ _
    exact .pure upward_chains trivial

theorem authenticated_ascends (ctx : StreamContext) (world : World) (session : ServerSession) (target : Address)
    (initial : List UInt8) (preAuthUpload : Nat) :
    Ascends (fun phase => phase = .closed (.ok ()) ∨
        ∃ served, phase = .connecting session served target initial)
      (authenticated ctx world session target initial preAuthUpload) := by
  rw [authenticated]
  dsimp only
  apply Does.bind upward_chains (lookupCounters_ascends _)
  intro counters _
  apply Does.bind upward_chains (perform_does (.recordUpload counters preAuthUpload) trivial)
  intro _ _
  apply Does.bind upward_chains (acquireSlot_ascends world _ _)
  intro admitted _
  cases admitted with
  | false => exact .pure upward_chains (Or.inl rfl)
  | true =>
      apply Does.bind upward_chains (auditInitial_ascends world _ initial)
      intro matched _
      split
      · exact .bail upward_chains trivial
      · exact .pure upward_chains (Or.inr ⟨_, rfl⟩)

theorem connectTurn_ascends (ctx : StreamContext) (session : ServerSession) (served : Served) (target : Address)
    (initial : List UInt8) (net : Network) (failure : Option (Nat × String)) :
    Ascends (fun phase => phase = .relay session served)
      (connectTurn ctx session served target initial net failure) := by
  rw [connectTurn]
  apply Does.bind upward_chains
  · apply modify_does
    intro action hmem
    obtain ⟨contact, -, rfl⟩ := List.mem_map.mp hmem
    trivial
  intro _ _
  apply Does.bind upward_chains (V := fun _ => True)
    (lift_does (fun _ _ => trivial) fun _ => trivial)
  intro _ _
  split
  · exact .pure upward_chains rfl
  · apply Does.bind upward_chains (throttle_does served.limiter _ fun _ _ => trivial)
    intro _ _
    apply Does.bind upward_chains (writeRemote_ascends initial _)
    intro _ _
    exact .pure upward_chains rfl

theorem clientTurn_ascends (session : ServerSession) (served : Served) (chunk : List UInt8)
    (write : Delivery) :
    Ascends (fun phase => phase = .closed (.ok ()) ∨
        phase = .relay ((ServerSession.decrypt P chunk).run session).2 served)
      (clientTurn P session served chunk write) := by
  rw [clientTurn]
  dsimp only
  split
  · exact .pure upward_chains (Or.inl rfl)
  apply Does.bind upward_chains (perform_does (.read chunk) trivial)
  intro _ _
  apply Does.bind upward_chains (perform_does (.recordUpload served.counters chunk.length) trivial)
  intro _ _
  apply Does.bind upward_chains (V := fun _ => True)
    (lift_does (fun _ _ => trivial) fun _ => trivial)
  intro data _
  split
  · exact .pure upward_chains (Or.inr rfl)
  apply Does.bind upward_chains (throttle_does served.limiter _ fun _ _ => trivial)
  intro _ _
  apply Does.bind upward_chains (writeRemote_ascends data write)
  intro _ _
  exact .pure upward_chains (Or.inr rfl)

/-- The end of such a turn: an error closes the connection with it. -/
theorem Ascends.settle {V : StreamPhase → Prop} {task : StreamTask StreamPhase}
    (h : Ascends V task) (log : List Action) :
    ∃ acts, (settle (task.run log)).log = log ++ acts ∧ (∀ action ∈ acts, action.Upward) ∧
      (V (Connection.settle (task.run log)).phase ∨
        ∃ result, result ≠ .ok () ∧ (Connection.settle (task.run log)).phase = .closed result) := by
  obtain ⟨acts, hlog, hup⟩ := h.state log
  have hvalue := h.value log
  generalize task.run log = r at hlog hvalue ⊢
  obtain ⟨o, log'⟩ := r
  refine ⟨acts, ?_, hup, ?_⟩
  · cases o <;> exact hlog
  · cases o with
    | ok phase => exact Or.inl (hvalue phase rfl)
    | err e => exact Or.inr ⟨.err e, by rintro ⟨⟩, rfl⟩
    | panic => exact Or.inr ⟨.panic, by rintro ⟨⟩, rfl⟩

end Upward

/-! ### The invariant -/

/-- The target's bytes that an event brings to the relay. -/
def heard? : StreamPhase → StreamEvent → Option (List UInt8)
  | .relay _ _, .remoteRead chunk _ => if chunk = [] then none else some chunk
  | _, _ => none

/-- The chunks that the relay reads from the target in a run. -/
def heard (P : Primitives) (ctx : StreamContext) (c : Connection) :
    List StreamEvent → List (List UInt8)
  | [] => []
  | event :: events => (heard? c.phase event).toList ++ heard P ctx (step P ctx c event) events

/-- The log of a connection against the wire of the target's chunks. -/
structure Delivers (P : Primitives) (s : ServerSession) (userKey : List UInt8)
    (texts : List (List UInt8)) (log : List Action) : Prop where
  handed_eq : handed log = s.downWire P userKey texts
  prefixed : delivered log <+: s.downWire P userKey texts
  counted : downloads log = (clientWrites log).map fun w => w.1.length

/-- What a phase knows of the send side. -/
def SendSide (P : Primitives) (s : ServerSession) (userKey : List UInt8)
    (texts : List (List UInt8)) (log : List Action) : StreamPhase → Prop
  | .handshake h => texts = [] ∧ Idle P s h.session
  | .connecting session _ _ _ => Sent P s userKey texts session ∧ delivered log = handed log
  | .relay session _ => Sent P s userKey texts session ∧ delivered log = handed log
  | .closed result => result = .ok () → delivered log = handed log

def Down (P : Primitives) (s : ServerSession) (texts : List (List UInt8)) (c : Connection) :
    Prop :=
  ∃ userKey, Delivers P s userKey texts c.log ∧ SendSide P s userKey texts c.log c.phase

section Invariant

variable {s : ServerSession} {ctx : StreamContext} {texts : List (List UInt8)}
  {userKey : List UInt8} {log : List Action}

theorem Delivers.append_upward (h : Delivers P s userKey texts log) {acts : List Action}
    (hup : ∀ action ∈ acts, action.Upward) :
    Delivers P s userKey texts (log ++ acts) ∧ delivered (log ++ acts) = delivered log ∧
      handed (log ++ acts) = handed log := by
  obtain ⟨hwrites, hdownloads⟩ := views_upward hup
  have hdelivered : delivered (log ++ acts) = delivered log := by
    rw [delivered_append, delivered.eq_1 acts, hwrites]
    exact List.append_nil _
  have hhanded : handed (log ++ acts) = handed log := by
    rw [handed_append, handed.eq_1 acts, hwrites]
    exact List.append_nil _
  refine ⟨⟨hhanded.trans h.handed_eq, ?_, ?_⟩, hdelivered, hhanded⟩
  · rw [hdelivered]
    exact h.prefixed
  · rw [downloads_append, clientWrites_append, hwrites, hdownloads, List.append_nil,
      List.append_nil, h.counted]

/-- Before the relay there is nothing to deliver, whatever the key. -/
theorem Delivers.of_nil (h : Delivers P s userKey [] log) (other : List UInt8) :
    Delivers P s other [] log := ⟨h.handed_eq, h.prefixed, h.counted⟩

theorem Delivers.all_of_nil (h : Delivers P s userKey [] log) : delivered log = handed log := by
  rw [h.handed_eq]
  exact List.prefix_nil.mp h.prefixed

/-- A session that has come to the connect has its header accepted. -/
theorem Good.accepted {auditBlock : Bool} {session : ServerSession} {served : Served}
    {target : Address} {initial : List UInt8}
    (h : Good P s auditBlock ⟨.connecting session served target initial, log⟩) :
    ∃ protocol, session.Accepted protocol := by
  obtain ⟨hset, ⟨r, htook⟩, hopened⟩ := h
  obtain ⟨r', n, hdecoded, haccept, -⟩ := hopened.completed.here
  have hsame := htook.decoded_eq
  rw [decoded_settings hset, wire, hdecoded] at hsame
  rw [← Except.ok.inj hsame] at htook
  rcases factors_of_drain htook.decoded_eq with ⟨-, hheader⟩ | ⟨who, id, hphase, -⟩
  · rw [hheader] at haccept
    cases haccept
  · exact htook.accepted hphase

theorem handshakeTurn_down {h : Handshake}
    (hdown : Down P s texts ⟨.handshake h, log⟩) (chunk : List UInt8) (world : World)
    (hgood : Good P s ctx.enforcement.auditBlock
      (settle ((handshakeTurn P ctx h chunk world).run log))) :
    Down P s texts (settle ((handshakeTurn P ctx h chunk world).run log)) := by
  obtain ⟨userKey, hdelivers, rfl, hidle⟩ := hdown
  by_cases hchunk : chunk = []
  · rw [handshakeTurn, if_pos hchunk]
    exact ⟨userKey, hdelivers, fun _ => hdelivers.all_of_nil⟩
  have hread : ∀ action ∈ [Action.read chunk], action.Upward := by
    intro action hmem
    rw [List.mem_singleton.mp hmem]
    trivial
  obtain ⟨hdelivers', -, -⟩ := hdelivers.append_upward hread
  rcases handshakeTurn_cases ctx h hchunk world log with
    ⟨o, hrun, hend⟩ | ⟨out, target, initial, upload, -, -, -, hrun⟩
  · rw [hrun]
    rcases hend with ⟨h', rfl, hsession⟩ | rfl | ⟨e, rfl, -⟩
    · refine ⟨userKey, hdelivers', rfl, ?_⟩
      rw [hsession]
      exact hidle.decrypt chunk
    · exact ⟨userKey, hdelivers', fun _ => hdelivers'.all_of_nil⟩
    · exact ⟨userKey, hdelivers', fun _ => hdelivers'.all_of_nil⟩
  · rw [hrun] at hgood ⊢
    obtain ⟨acts, hlog, hup, hphase⟩ := (authenticated_ascends ctx world
      ((ServerSession.decrypt P chunk).run h.session).2 target initial upload).settle
      (log ++ [.read chunk])
    obtain ⟨hdelivers'', -, -⟩ := hdelivers'.append_upward hup
    generalize settle _ = c at hgood hlog hphase ⊢
    obtain ⟨phase, log'⟩ := c
    dsimp only at hlog hphase
    subst hlog
    rcases hphase with (rfl | ⟨served, rfl⟩) | ⟨result, -, rfl⟩
    · exact ⟨userKey, hdelivers'', fun _ => hdelivers''.all_of_nil⟩
    · obtain ⟨protocol, haccepted⟩ := hgood.accepted
      exact ⟨protocol.userKey, hdelivers''.of_nil _, (hidle.decrypt chunk).sent haccepted,
        hdelivers''.all_of_nil⟩
    · exact ⟨userKey, hdelivers'', fun _ => hdelivers''.all_of_nil⟩

/-- A turn of the relay that is not about the target's bytes. -/
theorem Ascends.down {V : StreamPhase → Prop} {task : StreamTask StreamPhase} (h : Ascends V task)
    (hdelivers : Delivers P s userKey texts log) (hall : delivered log = handed log)
    (hV : ∀ phase, V phase → ∀ log', delivered log' = handed log' →
      SendSide P s userKey texts log' phase) :
    Down P s texts (Connection.settle (task.run log)) := by
  obtain ⟨acts, hlog, hup, hphase⟩ := h.settle log
  obtain ⟨hdelivers', hdelivered, hhanded⟩ := hdelivers.append_upward hup
  have hall' : delivered (log ++ acts) = handed (log ++ acts) := by
    rw [hdelivered, hhanded, hall]
  generalize Connection.settle _ = c at hlog hphase ⊢
  obtain ⟨phase, log'⟩ := c
  dsimp only at hlog hphase
  subst hlog
  refine ⟨userKey, hdelivers', ?_⟩
  rcases hphase with hphase | ⟨result, hresult, rfl⟩
  · exact hV phase hphase _ hall'
  · exact fun hok => absurd hok hresult

/-- A write to the client, whole or cut short. -/
theorem writeClient_cases (data : List UInt8) (write : Delivery) :
    Adds (writeClient data write) (.ok ()) [.writeClient data data.length] ∨
      write ≠ .done ∧ ∃ e sent, Adds (writeClient data write) (.err e) [.writeClient data sent] := by
  cases write with
  | done => exact Or.inl (adds_perform _)
  | failed sent reason =>
      exact Or.inr ⟨by rintro ⟨⟩, _, sent, (adds_perform _).bind (adds_bail _)⟩
  | timedOut sent => exact Or.inr ⟨by rintro ⟨⟩, _, sent, (adds_perform _).bind (adds_bail _)⟩

theorem throttle_upward (limiter : Option Handle) (amount : Nat) :
    ∃ acts, Adds (throttle limiter amount) (.ok ()) acts ∧ ∀ action ∈ acts, action.Upward := by
  cases limiter with
  | none => exact ⟨[], adds_pure (), by rintro _ ⟨⟩⟩
  | some limiter =>
      refine ⟨[.acquire limiter amount], adds_perform _, ?_⟩
      intro action hmem
      rw [List.mem_singleton.mp hmem]
      trivial

/-- The log behind a chunk of the target: a record, the limiter and the write. -/
theorem Delivers.append_write (h : Delivers P s userKey texts log)
    (hall : delivered log = handed log) {text wire : List UInt8} (counters : Handle)
    {acts : List Action} (hup : ∀ action ∈ acts, action.Upward) (sent : Nat)
    (hwire : s.downWire P userKey (texts ++ [text]) = s.downWire P userKey texts ++ wire) :
    let log' := log ++ ([.recordDownload counters wire.length] ++ (acts ++ [.writeClient wire sent]))
    Delivers P s userKey (texts ++ [text]) log' ∧
      (sent = wire.length → delivered log' = handed log') := by
  intro log'
  obtain ⟨hwrites, hdownloads⟩ := views_upward hup
  have hone : clientWrites log' = clientWrites log ++ [(wire, sent)] := by
    simp only [log', clientWrites_append, hwrites]
    rfl
  have hrecord : downloads log' = downloads log ++ [wire.length] := by
    simp only [log', downloads_append, hdownloads]
    rfl
  have hhanded : handed log' = handed log ++ wire := by
    rw [handed, hone, List.flatMap_append]
    exact congrArg (_ ++ ·) (List.append_nil wire)
  have hdelivered : delivered log' = delivered log ++ wire.take sent := by
    rw [delivered, hone, List.flatMap_append]
    exact congrArg (_ ++ ·) (List.append_nil (wire.take sent))
  refine ⟨⟨?_, ?_, ?_⟩, ?_⟩
  · rw [hhanded, h.handed_eq, hwire]
  · rw [hdelivered, hall, h.handed_eq, hwire]
    exact List.prefix_append_right_inj _ |>.mpr (List.take_prefix sent wire)
  · rw [hrecord, hone, h.counted, List.map_append]
    rfl
  · intro hwhole
    rw [hdelivered, hhanded, hall, hwhole, List.take_length]

/-- The actions of a turn for the target's bytes, by the end of the write. -/
theorem remoteTurn_cases {session : ServerSession} (served : Served) {chunk wire : List UInt8}
    (hchunk : chunk ≠ []) (hok : ((ServerSession.encrypt P chunk).run session).1 = .ok wire)
    (write : Delivery) :
    ∃ acts, (∀ action ∈ acts, action.Upward) ∧
      (Adds (remoteTurn P session served chunk write)
          (.ok (.relay ((ServerSession.encrypt P chunk).run session).2 served))
          ([.recordDownload served.counters wire.length] ++
            (acts ++ [.writeClient wire wire.length])) ∨
        write ≠ .done ∧ ∃ e sent, Adds (remoteTurn P session served chunk write) (.err e)
          ([.recordDownload served.counters wire.length] ++ (acts ++ [.writeClient wire sent]))) := by
  obtain ⟨acts, hthrottle, hup⟩ := throttle_upward served.limiter wire.length
  have hrecord := adds_perform (.recordDownload served.counters wire.length)
  refine ⟨acts, hup, ?_⟩
  simp only [remoteTurn, if_neg hchunk, hok, lift_ok, pure_bind]
  rcases writeClient_cases wire write with hwrite | ⟨hfails, e, sent, hwrite⟩
  · left
    rw [← List.append_nil [Action.writeClient wire wire.length]]
    exact hrecord.bind (hthrottle.bind (hwrite.bind (adds_pure _)))
  · exact Or.inr ⟨hfails, e, sent, hrecord.bind (hthrottle.bind hwrite.bind_err)⟩

theorem remoteTurn_down {session : ServerSession} {served : Served}
    (hsent : Sent P s userKey texts session) (hdelivers : Delivers P s userKey texts log)
    (hall : delivered log = handed log) (chunk : List UInt8) (write : Delivery) :
    Down P s (texts ++ (heard? (.relay session served) (.remoteRead chunk write)).toList)
      (settle ((remoteTurn P session served chunk write).run log)) := by
  by_cases hchunk : chunk = []
  · rw [remoteTurn, if_pos hchunk, heard?, if_pos hchunk, Option.toList_none, List.append_nil]
    exact ⟨userKey, hdelivers, fun _ => hall⟩
  obtain ⟨wire, hok, hwire, hnext⟩ := hsent.encrypt chunk
  rw [heard?, if_neg hchunk, Option.toList_some]
  obtain ⟨acts, hup, hturn | ⟨-, e, sent, hturn⟩⟩ := remoteTurn_cases served hchunk hok write
  · obtain ⟨hdelivers', hwhole⟩ := hdelivers.append_write hall served.counters hup wire.length hwire
    rw [hturn log]
    exact ⟨userKey, hdelivers', hnext, hwhole rfl⟩
  · obtain ⟨hdelivers', -⟩ := hdelivers.append_write hall served.counters hup sent hwire
    rw [hturn log]
    exact ⟨userKey, hdelivers', by rintro ⟨⟩⟩

theorem down_step {c : Connection} (hgood : Good P s ctx.enforcement.auditBlock c)
    (h : Down P s texts c) (event : StreamEvent) :
    Down P s (texts ++ (heard? c.phase event).toList) (step P ctx c event) := by
  have hnext : Good P s ctx.enforcement.auditBlock (step P ctx c event) := good_step hgood event
  obtain ⟨phase, log⟩ := c
  have hstays (hnone : heard? phase event = none) {c' : Connection} (h' : Down P s texts c') :
      Down P s (texts ++ (heard? phase event).toList) c' := by
    rw [hnone, Option.toList_none, List.append_nil]
    exact h'
  rw [step] at hnext ⊢
  cases phase with
  | handshake hs =>
      have hfails (e : StreamError) : Down P s texts (settle (.err e, log)) := by
        obtain ⟨userKey, hdelivers, -⟩ := h
        exact ⟨userKey, hdelivers, by rintro ⟨⟩⟩
      cases event with
      | clientRead chunk world write => exact hstays rfl (handshakeTurn_down h chunk world hnext)
      | clientFailed reason => exact hstays rfl (hfails _)
      | idle => exact hstays rfl (hfails _)
      | connected net failure => exact hstays rfl h
      | remoteRead chunk write => exact hstays rfl h
      | remoteFailed reason => exact hstays rfl h
  | connecting session served target initial =>
      cases event with
      | connected net failure =>
          obtain ⟨userKey, hdelivers, hsent, hall⟩ := h
          apply hstays rfl
          apply (connectTurn_ascends ctx session served target initial net failure).down hdelivers
            hall
          rintro _ rfl log' hall'
          exact ⟨hsent, hall'⟩
      | clientRead chunk world write => exact hstays rfl h
      | clientFailed reason => exact hstays rfl h
      | remoteRead chunk write => exact hstays rfl h
      | remoteFailed reason => exact hstays rfl h
      | idle => exact hstays rfl h
  | relay session served =>
      obtain ⟨userKey, hdelivers, hsent, hall⟩ := h
      have hfails (e : StreamError) : Down P s texts (settle (.err e, log)) :=
        ⟨userKey, hdelivers, by rintro ⟨⟩⟩
      cases event with
      | clientRead chunk world write =>
          apply hstays rfl
          apply (clientTurn_ascends session served chunk write).down hdelivers hall
          rintro _ (rfl | rfl) log' hall'
          · exact fun _ => hall'
          · exact ⟨hsent.decrypt chunk, hall'⟩
      | remoteRead chunk write => exact remoteTurn_down hsent hdelivers hall chunk write
      | clientFailed reason => exact hstays rfl (hfails _)
      | remoteFailed reason => exact hstays rfl (hfails _)
      | idle => exact hstays rfl (hfails _)
      | connected net failure => exact hstays rfl ⟨userKey, hdelivers, hsent, hall⟩
  | closed result => cases event <;> exact hstays rfl h

theorem down_run {c : Connection} (hgood : Good P s ctx.enforcement.auditBlock c)
    (h : Down P s texts c) (events : List StreamEvent) :
    Down P s (texts ++ heard P ctx c events) (Machine.run (step P ctx) c events) := by
  induction events generalizing c texts with
  | nil =>
      rw [heard, List.append_nil]
      exact h
  | cons event events ih =>
      have hrest := ih (good_step hgood event) (down_step hgood h event)
      rw [List.append_assoc] at hrest
      exact hrest

theorem Down.all {c : Connection} (h : Down P s texts c)
    (hphase : ∀ e, c.phase ≠ .closed (.err e)) (hpanic : c.phase ≠ .closed .panic) :
    delivered c.log = handed c.log := by
  obtain ⟨phase, log⟩ := c
  obtain ⟨userKey, hdelivers, hside⟩ := h
  cases phase with
  | handshake hs =>
      obtain ⟨rfl, -⟩ := hside
      exact hdelivers.all_of_nil
  | connecting session served target initial => exact hside.2
  | relay session served => exact hside.2
  | closed result =>
      cases result with
      | ok _ => exact hside rfl
      | err e => exact absurd rfl (hphase e)
      | panic => exact absurd rfl hpanic

end Invariant

/-- What the client of a connection gets: however the wire is cut into reads, it decodes a prefix
of the bytes the relay has read from the target, and all of them unless the connection has ended
with an error; and every byte handed to its socket is recorded. -/
theorem downlink_fidelity {ctx : StreamContext} {getrandom : GetRandom} {s : ServerSession}
    {events : List StreamEvent} {c : Connection}
    (hnew : ServerSession.new P ctx.password ctx.tables.authUsers ctx.isMultiUser
      ctx.cipherKind getrandom = .ok s)
    (hrun : handleStream P ctx getrandom events = .ok c) :
    let texts := heard P ctx (start s) events
    (∀ (recvId : UInt32) (segs : List (List UInt8)), segs.flatten = delivered c.log →
      ∃ got : List (List UInt8), (ClientReceiver.clientRecvAll P
          (ClientReceiver.start s.cipher s.masterKey recvId) segs).1 = got.map .ok ∧
        got.flatten <+: texts.flatten ∧
        ((∀ e, c.phase ≠ .closed (.err e)) → c.phase ≠ .closed .panic →
          got.flatten = texts.flatten)) ∧
    delivered c.log <+: handed c.log ∧ (downloads c.log).sum = (handed c.log).length := by
  intro texts
  obtain ⟨hs, -⟩ := good_of_run hnew hrun
  rw [handleStream_of_new hnew] at hrun
  have hstart : Down P s [] (start s) := by
    refine ⟨[], ⟨rfl, List.prefix_rfl, rfl⟩, rfl, ?_⟩
    exact ⟨hs.unsent, hs.masterKey_length, rfl, rfl, rfl⟩
  have hdown : Down P s texts c := by
    rw [← Outcome.ok.inj hrun]
    exact down_run (good_start hs ctx.enforcement.auditBlock) hstart events
  obtain ⟨userKey, hdelivers, -⟩ := id hdown
  refine ⟨?_, ?_, ?_⟩
  · intro recvId segs hsegs
    have hfront : segs.flatten <+: s.downWire P userKey texts := by
      rw [hsegs]
      exact hdelivers.prefixed
    obtain ⟨got, hgot, hpart, hwhole⟩ :=
      client_reads_prefix hs userKey texts recvId hfront
    refine ⟨got, hgot, hpart, ?_⟩
    intro hphase hpanic
    apply hwhole
    rw [hsegs, hdown.all hphase hpanic, hdelivers.handed_eq]
  · rw [hdelivers.handed_eq]
    exact hdelivers.prefixed
  · rw [hdelivers.counted, handed, List.length_flatMap]

/-- The chunks of a run that is continued. -/
theorem heard_append (ctx : StreamContext) (c : Connection) (xs ys : List StreamEvent) :
    heard P ctx c (xs ++ ys) =
      heard P ctx c xs ++ heard P ctx (Machine.run (step P ctx) c xs) ys := by
  induction xs generalizing c with
  | nil => rfl
  | cons x xs ih =>
      rw [List.cons_append, heard, heard, ih, List.append_assoc]
      rfl

/-- The target of the sample answers, and the client reads the answer. -/
theorem downlink_fidelity_sample :
    ∃ c, handleStream .standard sampleContext sampleRandom
        (sampleEvents ++ [.remoteRead [5] .done]) = .ok c ∧
      ∀ (recvId : UInt32) (segs : List (List UInt8)), segs.flatten = delivered c.log →
        ∃ got : List (List UInt8), (ClientReceiver.clientRecvAll .standard
          (ClientReceiver.start sampleSession.cipher sampleSession.masterKey recvId) segs).1 =
            got.map .ok ∧ got.flatten = [5] := by
  obtain ⟨c, session, served, hbefore, hphase, -⟩ := sample_run
  have hs := (ServerSession.fresh_of_new sample_new).1
  have hrun := handleStream_of_new sample_new (sampleEvents ++ [.remoteRead [5] .done])
  rw [handleStream_of_new sample_new] at hbefore
  have hc := Outcome.ok.inj hbefore
  have hquiet : heard .standard sampleContext (start sampleSession) sampleEvents = [] := by
    have hone (c : Connection) (event : StreamEvent)
        (h : ∀ chunk write, event ≠ .remoteRead chunk write) : heard? c.phase event = none := by
      cases c.phase <;> cases event <;> first | rfl | exact absurd rfl (h _ _)
    rw [sampleEvents, heard, heard, heard, heard, hone _ _ (by rintro _ _ ⟨⟩),
      hone _ _ (by rintro _ _ ⟨⟩), hone _ _ (by rintro _ _ ⟨⟩)]
    rfl
  have hheard : heard .standard sampleContext (start sampleSession)
      (sampleEvents ++ [.remoteRead [5] .done]) = [[5]] := by
    rw [heard_append, hquiet, hc, heard, hphase]
    rfl
  have hstart : Down .standard sampleSession [] (start sampleSession) :=
    ⟨[], ⟨rfl, List.prefix_rfl, rfl⟩, rfl, hs.unsent, hs.masterKey_length, rfl, rfl, rfl⟩
  have hdown : Down .standard sampleSession _ _ :=
    down_run (good_start hs sampleContext.enforcement.auditBlock) hstart sampleEvents
  rw [hc] at hdown
  obtain ⟨phase, log⟩ := c
  dsimp only at hphase
  subst hphase
  obtain ⟨userKey, -, hsent, -⟩ := hdown
  obtain ⟨wire, hok, -⟩ := hsent.encrypt [5]
  obtain ⟨acts, -, hturn | ⟨hfails, -⟩⟩ := remoteTurn_cases served
    (List.cons_ne_nil 5 []) hok .done
  · have hrelay : (Machine.run (step .standard sampleContext) (start sampleSession)
        (sampleEvents ++ [.remoteRead [5] .done])).phase =
          .relay ((ServerSession.encrypt .standard [5]).run session).2 served := by
      rw [Machine.run_append, hc]
      exact congrArg (fun r => (settle r).phase) (hturn log)
    refine ⟨_, hrun, ?_⟩
    intro recvId segs hsegs
    obtain ⟨got, hgot, -, hall⟩ := (downlink_fidelity sample_new hrun).1 recvId segs hsegs
    refine ⟨got, hgot, ?_⟩
    rw [hall (by rw [hrelay]; rintro e ⟨⟩) (by rw [hrelay]; rintro ⟨⟩), hheard]
    rfl
  · exact absurd rfl hfails

end Connection

end SsrBackend
