import Chassis.Proofs.Relay
import Chassis.Rest.Service

/-!
# Where the failures of a request come from

> **the failure that a handler comes to was raised here, or it is what the peer told in an
> envelope** (`Rest.Action.hasOrigin_run`).

Each function between the directory or the peer and a handler is gone through once, and all that is
known of its failures is said in one property, `Failure.HasOrigin`: whether the peer told them, and
that its records were read if it did. What a failure can be told with, and which id goes with it,
are read off that.
-/

set_option autoImplicit false

namespace Chassis

open Http

/-! ## Failures -/

namespace Failure

/-- The failure was raised here, or it is what an envelope told that came under a condition. -/
def HasOrigin (f : Failure) (told : Prop) : Prop :=
  f.root.IsLocal ∨
    told ∧ ∃ body e, Envelope.decode body = .ok e ∧ f.root = .remote ⟨e.message, e.details⟩

variable {f : Failure} {told : Prop}

theorem HasOrigin.imp {told' : Prop} (h : f.HasOrigin told) (himp : told → told') :
    f.HasOrigin told' :=
  h.imp_right (And.imp_left himp)

/-- A label does not change where a failure comes from. -/
theorem HasOrigin.under (h : f.HasOrigin told) (op : String) : (f.under op).HasOrigin told :=
  h

/-- A result that is a failure raised here. -/
theorem hasOrigin_of_error_eq {α : Type} {g : Failure}
    (h : (Except.error g : Except Failure α) = .error f) (hg : g.root.IsLocal) :
    f.HasOrigin told :=
  Except.error.inj h ▸ .inl hg

/-- What is made of a response is what its envelope told, if it has one with a code. -/
theorem hasOrigin_ofResponse {method url : String} {status : Nat} {body : List UInt8}
    (h : ofResponse method url status body = some f) :
    f.HasOrigin (400 ≤ status ∧ ∃ e, Envelope.decode body = .ok e ∧ e.code ≠ 0) := by
  rw [ofResponse] at h
  split at h
  case isTrue => cases h
  case isFalse hstatus =>
    split at h
    case h_1 =>
      obtain rfl := Option.some.inj h
      exact .inl trivial
    case h_2 e hread =>
      split at h
      case isTrue =>
        obtain rfl := Option.some.inj h
        exact .inl trivial
      case isFalse hcode =>
        obtain rfl := Option.some.inj h
        exact .inr ⟨⟨Nat.not_lt.1 hstatus, e, hread, hcode⟩, body, e, hread, rfl⟩

end Failure

/-! ## The peer -/

namespace Peer

/-- A call that failed itself is a failure of the caller's. -/
theorem CallError.isLocal_cause (e : CallError) : e.cause.IsLocal := by
  rw [cause]
  split <;> exact trivial

/-- A reply that is all there in time comes to the client as it is. -/
theorem Reply.within_of_time_lt {reply : Reply} {limit : Nat} (h : reply.time < limit) :
    Reply.within limit reply = reply := by
  obtain ⟨result, after⟩ := reply
  have hafter : after < limit := Nat.lt_of_le_of_lt (Nat.le_add_right _ _) h
  have hhead : Arrival.within limit ⟨result, after⟩ = ⟨result, after⟩ :=
    if_neg (Nat.not_le.2 hafter)
  rw [within, hhead]
  cases result with
  | error e => rfl
  | ok r =>
    have hbody : r.body.within (limit - after) = r.body := by
      have htime : after + r.body.after < limit := h
      exact if_neg (by omega)
    simp only [Except.map, hbody]

/-- The response is a failure that is told in an envelope with a code. -/
def Response.TellsEnvelope (r : Response) : Prop :=
  400 ≤ r.status ∧ ∃ bytes e, r.body.result = .ok bytes ∧ Envelope.decode bytes = .ok e ∧
    e.code ≠ 0

/-- The reply is such a response. -/
def Reply.TellsEnvelope (reply : Reply) : Prop :=
  ∃ r, reply.result = .ok r ∧ r.TellsEnvelope

theorem hasOrigin_checkResponse {method : String} {r : Response} {f : Failure}
    (h : checkResponse method r = .error f) : f.HasOrigin r.TellsEnvelope := by
  rw [checkResponse] at h
  split at h
  case isTrue => cases h
  case isFalse =>
    split at h
    case h_1 e hcut => exact Failure.hasOrigin_of_error_eq h e.isLocal_cause
    case h_2 bytes hbytes =>
      split at h
      case h_1 f' htold =>
        obtain rfl := Except.error.inj h
        refine (Failure.hasOrigin_ofResponse htold).imp ?_
        rintro ⟨hstatus, e, hread, hcode⟩
        exact ⟨hstatus, bytes, e, hbytes, hread, hcode⟩
      case h_2 => exact Failure.hasOrigin_of_error_eq h trivial

end Peer

namespace PeerClient

theorem receive_of_time_lt (c : PeerClient) {network : Peer.Network} {call : Peer.Call}
    (h : (network call).time < c.patience) : c.receive network call = network call :=
  Peer.Reply.within_of_time_lt h

/-- What is wrong with the body of a response that tells no failure is found out here. -/
theorem isLocal_readUser {r : Peer.Response} {f : Failure} (h : readUser r = .error f) :
    f.root.IsLocal := by
  rw [readUser] at h
  split at h
  case h_1 e hcut => exact Except.error.inj h ▸ e.isLocal_cause
  case h_2 =>
    split at h
    · cases h
    · exact Except.error.inj h ▸ trivial

variable [Net.HostNames]

/-- The peer's reply to the call for a path tells a failure in an envelope, as far as the client
waits for it. -/
def IsTold (c : PeerClient) (network : Peer.Network) (path requestId : String) : Prop :=
  ∃ call, c.call? path requestId = some call ∧ (c.receive network call).TellsEnvelope

variable {c : PeerClient} {network : Peer.Network} {requestId : String} {f : Failure}

theorem hasOrigin_get {path : String} (h : c.get network path requestId = .error f) :
    f.HasOrigin (c.IsTold network path requestId) := by
  rw [get] at h
  split at h
  case h_1 => exact Failure.hasOrigin_of_error_eq h trivial
  case h_2 call hcall =>
    split at h
    case h_1 e hfailed => exact Failure.hasOrigin_of_error_eq h e.isLocal_cause
    case h_2 r hreply =>
      exact (Peer.hasOrigin_checkResponse h).imp fun htells => ⟨call, hcall, r, hreply, htells⟩

theorem hasOrigin_getUser {id : String} (h : c.getUser network id requestId = .error f) :
    f.HasOrigin (c.IsTold network ("/users/" ++ id) requestId) := by
  rw [getUser] at h
  cases hget : c.get network ("/users/" ++ id) requestId with
  | error f' =>
    rw [hget] at h
    obtain rfl := Except.error.inj h
    exact hasOrigin_get hget
  | ok r =>
    rw [hget, ok_bind] at h
    exact .inl (isLocal_readUser h)

end PeerClient

/-! ## The directory -/

namespace Directory

variable {d : Directory} {f : Failure}

theorem isLocal_get {id : String} (h : d.get id = .error f) : f.root.IsLocal := by
  rw [get] at h
  split at h
  · cases h
  · exact Except.error.inj h ▸ trivial

theorem isLocal_create {new : NewUser} (h : d.create new = .error f) : f.root.IsLocal := by
  rw [create] at h
  split at h
  · exact Except.error.inj h ▸ trivial
  · split at h
    · exact Except.error.inj h ▸ trivial
    · cases h

end Directory

/-! ## Handlers -/

namespace Rest.Action

variable {r : Request} {f : Failure}

theorem isLocal_create {d : Directory} (h : (create d r).1 = .failed f) : f.root.IsLocal := by
  rw [create] at h
  split at h
  · obtain rfl := Outcome.failed.inj h
    exact trivial
  · split at h
    case h_1 => cases h
    case h_2 hcreate =>
      obtain rfl := Outcome.failed.inj h
      have hlocal := Directory.isLocal_create hcreate
      exact hlocal

/-- A handler that is given its segment comes to a failure only if its result is one. -/
theorem exists_of_withText_eq_failed {segment op : String} {result : String → Except Failure User}
    (h : withText segment (fun id => .ofResult op (result id)) = .failed f) :
    ∃ id g, Net.Percent.decodeText? segment = some id ∧ result id = .error g ∧
      f = g.under op := by
  rw [withText] at h
  split at h
  case h_1 id htext =>
    cases hid : result id with
    | ok u =>
      rw [hid] at h
      cases h
    | error g =>
      rw [hid] at h
      exact ⟨id, g, htext, hid, (Outcome.failed.inj h).symm⟩
  case h_2 => cases h

variable [Net.HostNames]

/-- The call that a handler makes. Only the one that asks for a user of the peer makes any. -/
def Sends (action : Action) (peer : Option PeerClient) (requestId : String) (call : Peer.Call) :
    Prop :=
  ∃ segment id c, action = .getPeerUser segment ∧ Net.Percent.decodeText? segment = some id ∧
    peer = some c ∧ c.call? ("/users/" ++ id) requestId = some call

/-- The reply to the call of a handler tells a failure in an envelope, as far as it is waited
for. -/
def IsTold (action : Action) (peer : Option PeerClient) (network : Peer.Network)
    (requestId : String) : Prop :=
  ∃ c call, peer = some c ∧ action.Sends peer requestId call ∧
    (c.receive network call).TellsEnvelope

variable {action : Action} {peer : Option PeerClient} {network : Peer.Network}
  {d : Directory} {requestId : String}

theorem hasOrigin_relay {id : String} (h : relay peer network id requestId = .error f) :
    f.HasOrigin (∃ c, peer = some c ∧ c.IsTold network ("/users/" ++ id) requestId) := by
  unfold relay at h
  split at h
  · exact Failure.hasOrigin_of_error_eq h trivial
  · exact (PeerClient.hasOrigin_getUser h).imp fun htold => ⟨_, rfl, htold⟩

/-- **Whatever failure a handler comes to was raised here, or the peer told it in an envelope.** -/
theorem hasOrigin_run (h : (action.run peer network d r requestId).1 = .failed f) :
    f.HasOrigin (action.IsTold peer network requestId) := by
  cases action with
  | health => cases h
  | createUser => exact .inl (isLocal_create h)
  | getUser segment =>
    obtain ⟨id, g, -, hget, rfl⟩ := exists_of_withText_eq_failed h
    have hlocal := Directory.isLocal_get hget
    exact .inl hlocal
  | getPeerUser segment =>
    obtain ⟨id, g, htext, hrelay, rfl⟩ := exists_of_withText_eq_failed h
    refine ((hasOrigin_relay hrelay).imp ?_).under _
    rintro ⟨c, hpeer, call, hcall, htells⟩
    exact ⟨c, call, hpeer, ⟨segment, id, c, rfl, htext, hpeer, hcall⟩, htells⟩
  | late delay => cases h

/-- A handler that makes a call takes as long as the reply does. -/
theorem time_of_sends {c : PeerClient} {call : Peer.Call} (hpeer : peer = some c)
    (h : action.Sends peer requestId call) :
    action.time peer network requestId = (c.receive network call).time := by
  obtain ⟨segment, id, c', rfl, htext, hpeer', hcall⟩ := h
  obtain rfl := Option.some.inj (hpeer.symm.trans hpeer')
  simp only [time, htext, relayTime, hpeer, PeerClient.time, hcall]

end Rest.Action

end Chassis
