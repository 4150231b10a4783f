import Chassis.Proofs.Net.Segment
import Chassis.Proofs.Rest.Envelopes

/-!
# Asking the peer for a user

> **the peer is asked for exactly the user of the request, if its base address has neither a query
> nor a fragment and the id is a plain segment, and only then** (`Rest.Service.sends_asksFor_iff`).

The id comes out of a segment of the path with its groups decoded, and goes into the address of the
call as it is. Nothing is written as a group again, so an id with a slash, a question mark, a hash
or a group of its own, or one that is dots, asks for something else: `../healthz` for the health of
the peer (`not_always_asksFor`).

What is sent is a property here (`Service.Sends`), and the network is a parameter of the handler.
They are the same thing: a call is sent exactly when the answer hangs on what the network has to say
to it (`Service.sends_iff`).
-/

set_option autoImplicit false

namespace Chassis

open Net Http

/-! ## The client -/

namespace PeerClient

variable {c : PeerClient} {base : Url} {requestId : String}

/-- The base address of the client is a readable address, and ends in a visible character that is no
slash once the slashes at its end are dropped. -/
structure HasBase [HostNames] (c : PeerClient) (base : Url) : Prop where
  reads : Url.ofText? (String.ofList (dropLastSlashes c.settings.baseUrl)) = some base
  ends : Url.EndsInName (dropLastSlashes c.settings.baseUrl)

theorem url_users (c : PeerClient) (id : String) :
    c.url ("/users/" ++ id) =
      String.ofList (dropLastSlashes c.settings.baseUrl ++
        '/' :: ("users".toList ++ '/' :: id.toList)) := by
  rw [url, String.toList_append]
  rfl

theorem isPlainSegment_users : Url.IsPlainSegment "users" := by
  decide

/-- The address of a user: the base address goes on with its path, or has it in its query or its
fragment. -/
theorem exists_call? [HostNames] (hbase : c.HasBase base) (id requestId : String) :
    ∃ u, c.call? ("/users/" ++ id) requestId = some { method := "GET", url := u, requestId } ∧
      (base.query = none ∧ base.fragment = none →
        u = base.continued (Url.relevantEnd ("users".toList ++ '/' :: id.toList))) ∧
      (¬ (base.query = none ∧ base.fragment = none) → ¬ (u.query = none ∧ u.fragment = none)) := by
  obtain ⟨u, hu, hspec⟩ :=
    Url.ofText?_append hbase.reads hbase.ends ("users".toList ++ '/' :: id.toList)
  exact ⟨u, by rw [call?, url_users, hu, Option.map_some], hspec⟩

end PeerClient

/-- The call asks for one user: for a single segment in the directory of users below an address,
which stands for the id, and for nothing else. -/
def Peer.Call.AsksFor (call : Peer.Call) (base : Url) (id : String) : Prop :=
  call.method = "GET" ∧ ∃ segment, Percent.decodeText? segment = some id ∧
    call.url = base.inDirectory "users" segment

/-- A call asks for one user at most. -/
theorem Peer.Call.AsksFor.id_eq {call call' : Peer.Call} {base : Url} {id id' : String}
    (h : call.AsksFor base id) (h' : call'.AsksFor base id') (hurl : call.url = call'.url) :
    id = id' := by
  obtain ⟨-, segment, hid, hsegment⟩ := h
  obtain ⟨-, segment', hid', hsegment'⟩ := h'
  rw [hsegment, hsegment'] at hurl
  have hlast := congrArg (fun u : Url => u.segments.getLast?) hurl
  simp only [Url.inDirectory, List.getLast?_append, List.getLast?_cons_cons,
    List.getLast?_singleton, Option.some_or, Option.some.injEq] at hlast
  rw [hlast, hid'] at hid
  exact (Option.some.inj hid).symm

/-- **The client asks for exactly the user of an id** if the base address stops before a query and
the id is plain, and only then. -/
theorem PeerClient.asksFor_call_iff [HostNames] {c : PeerClient} {base : Url}
    (hbase : c.HasBase base) {id requestId : String} {call : Peer.Call}
    (hcall : c.call? ("/users/" ++ id) requestId = some call) :
    call.AsksFor base id ↔
      (base.query = none ∧ base.fragment = none) ∧ Url.IsPlainSegment id := by
  obtain ⟨u, hu, hclean, hmarked⟩ := c.exists_call? hbase id requestId
  obtain rfl := Option.some.inj (hcall.symm.trans hu)
  by_cases h : base.query = none ∧ base.fragment = none
  · rw [and_iff_right h, hclean h]
    rw [← Url.exists_segment_iff isPlainSegment_users (by decide) base id]
    exact and_iff_right rfl
  · refine iff_of_false ?_ fun h' => h h'.1
    rintro ⟨-, segment, -, hurl⟩
    have hurl : u = base.inDirectory "users" segment := hurl
    exact hmarked h ⟨congrArg Url.query hurl, congrArg Url.fragment hurl⟩

/-! ## What is sent -/

namespace PeerClient

theorem patience_pos (c : PeerClient) : 0 < c.patience := by
  rw [patience]
  omega

/-- A reply that is there at once is all that the client has to wait for. -/
theorem receive_of_time_eq_zero (c : PeerClient) {network : Peer.Network} {call : Peer.Call}
    (h : (network call).time = 0) : c.receive network call = network call :=
  c.receive_of_time_lt (h ▸ c.patience_pos)

variable [HostNames] (c : PeerClient) {network network' : Peer.Network} {path requestId : String}

/-- The network is asked for nothing but the call. -/
theorem get_congr (h : ∀ call, c.call? path requestId = some call → network call = network' call) :
    c.get network path requestId = c.get network' path requestId := by
  rw [get, get]
  cases hcall : c.call? path requestId with
  | none => rfl
  | some call => simp only [receive, h call hcall]

theorem time_congr (h : ∀ call, c.call? path requestId = some call → network call = network' call) :
    c.time network path requestId = c.time network' path requestId := by
  rw [time, time]
  cases hcall : c.call? path requestId with
  | none => rfl
  | some call => simp only [receive, h call hcall]

theorem getUser_congr {id : String}
    (h : ∀ call, c.call? ("/users/" ++ id) requestId = some call → network call = network' call) :
    c.getUser network id requestId = c.getUser network' id requestId := by
  rw [getUser, getUser, c.get_congr h]

theorem getUser_of_failed {id : String} {call : Peer.Call} {e : Peer.CallError}
    (hcall : c.call? ("/users/" ++ id) requestId = some call)
    (hreply : (c.receive network call).result = .error e) (hconnect : e.isConnect = true) :
    ∃ f, c.getUser network id requestId = .error f ∧ f.canonicalCode = .unavailable := by
  simp only [getUser, get, hcall, hreply, if_pos hconnect]
  exact ⟨_, rfl, rfl⟩

theorem getUser_of_cut {id : String} {call : Peer.Call} {r : Peer.Response} {e : Peer.CallError}
    (hcall : c.call? ("/users/" ++ id) requestId = some call)
    (hreply : (c.receive network call).result = .ok r) (hstatus : r.status < 400)
    (hbody : r.body.result = .error e) :
    ∃ f, c.getUser network id requestId = .error f ∧ f.canonicalCode = .internal := by
  simp only [getUser, get, hcall, hreply, Peer.checkResponse, if_pos hstatus, ok_bind, readUser,
    hbody]
  exact ⟨_, rfl, rfl⟩

end PeerClient

namespace Rest

namespace Action

variable [HostNames] {action : Action} {peer : Option PeerClient} {network network' : Peer.Network}
  {d : Directory} {r : Request} {requestId : String}

/-- Neither what a handler comes to nor how long it takes hangs on anything but the replies to what
it sends. -/
theorem run_congr (h : ∀ call, action.Sends peer requestId call → network call = network' call) :
    action.run peer network d r requestId = action.run peer network' d r requestId := by
  cases action with
  | health | createUser | getUser segment | late delay => rfl
  | getPeerUser segment =>
    simp only [run, withText]
    cases htext : Percent.decodeText? segment with
    | none => rfl
    | some id =>
      cases hpeer : peer with
      | none => rfl
      | some c =>
        simp only [relay]
        rw [c.getUser_congr fun call hcall => h call ⟨segment, id, c, rfl, htext, hpeer, hcall⟩]

theorem time_congr (h : ∀ call, action.Sends peer requestId call → network call = network' call) :
    action.time peer network requestId = action.time peer network' requestId := by
  cases action with
  | health | createUser | getUser segment | late delay => rfl
  | getPeerUser segment =>
    simp only [time]
    cases htext : Percent.decodeText? segment with
    | none => rfl
    | some id =>
      cases hpeer : peer with
      | none => rfl
      | some c =>
        simp only [relayTime]
        rw [c.time_congr fun call hcall => h call ⟨segment, id, c, rfl, htext, hpeer, hcall⟩]

end Action

namespace Service

section Calls

variable [HostNames] {s : Service} {network network' : Peer.Network} {fresh : String}
  {d : Directory} {r : Request}

/-- The answer hangs on nothing but the replies to what is sent. -/
theorem handle_congr (h : ∀ call, s.Sends fresh r call → network call = network' call) :
    s.handle network fresh d r = s.handle network' fresh d r := by
  have hanswer : s.answer network fresh d r = s.answer network' fresh d r := by
    cases hresource : s.resource? r with
    | none =>
      rw [resource?] at hresource
      rw [answer, answer]
      split
      · rfl
      · rw [hresource]
    | some resource =>
      have hsent : ∀ call, resource.action.Sends s.peer (r.id fresh) call →
          network call = network' call := fun call hcall => h call ⟨resource, hresource, hcall⟩
      rw [answer_of_resource network fresh d hresource,
        answer_of_resource network' fresh d hresource, Action.run_congr hsent,
        Action.time_congr hsent]
  rw [handle, handle, hanswer]

/-- The request is for the user that an id has with the peer. -/
def IsForPeerUser (s : Service) (r : Request) (id : String) : Prop :=
  ∃ resource segment, s.resource? r = some resource ∧ resource.action = .getPeerUser segment ∧
    Percent.decodeText? segment = some id

theorem IsForPeerUser.of_sends {call : Peer.Call} (h : s.Sends fresh r call) :
    ∃ c id, s.peer = some c ∧ s.IsForPeerUser r id ∧
      c.call? ("/users/" ++ id) (r.id fresh) = some call := by
  obtain ⟨resource, hresource, segment, id, c, haction, htext, hpeer, hcall⟩ := h
  exact ⟨c, id, hpeer, ⟨resource, segment, hresource, haction, htext⟩, hcall⟩

theorem sends_iff_call? {c : PeerClient} {id : String} (hpeer : s.peer = some c)
    (hr : s.IsForPeerUser r id) (call : Peer.Call) :
    s.Sends fresh r call ↔ c.call? ("/users/" ++ id) (r.id fresh) = some call := by
  obtain ⟨resource, segment, hresource, haction, htext⟩ := hr
  constructor
  · rintro ⟨resource', hresource', segment', id', c', haction', htext', hpeer', hcall⟩
    obtain rfl := Option.some.inj (hresource.symm.trans hresource')
    obtain rfl := Action.getPeerUser.inj (haction.symm.trans haction')
    obtain rfl := Option.some.inj (htext.symm.trans htext')
    obtain rfl := Option.some.inj (hpeer.symm.trans hpeer')
    exact hcall
  · intro hcall
    exact ⟨resource, hresource, segment, id, c, haction, htext, hpeer, hcall⟩

/-- The status of an answer about a user of the peer that could not be had, which is known at
once. -/
theorem status_handle_of_error {c : PeerClient} {id : String} {f : Failure} {call : Peer.Call}
    (hpeer : s.peer = some c) (hr : s.IsForPeerUser r id) (hsends : s.Sends fresh r call)
    (htime : (network call).time = 0) (hget : c.getUser network id (r.id fresh) = .error f) :
    (s.handle network fresh d r).1.status = f.canonicalCode.httpStatus := by
  obtain ⟨resource, segment, hresource, haction, htext⟩ := hr
  obtain ⟨resource', hresource', hcall⟩ := hsends
  obtain rfl := Option.some.inj (hresource.symm.trans hresource')
  have hdelay : ¬ s.limit.seconds * 1000 <
      resource.action.time s.peer network (r.id fresh) := by
    rw [Action.time_of_sends hpeer hcall, c.receive_of_time_eq_zero htime, htime]
    exact Nat.not_lt_zero _
  have hrun : (resource.action.run s.peer network d r (r.id fresh)).1 =
      .failed (f.under "rest.get_peer_user") := by
    rw [haction, hpeer]
    simp only [Action.run, withText, htext, relay, hget, Outcome.ofResult]
  rw [status_handle, answer_of_resource network fresh d hresource, if_neg hdelay]
  simp only [hrun, Outcome.respond]
  rw [Response.status_ofFailure, Failure.status_toResponse]
  rfl

/-- **A call is sent exactly when the answer hangs on the reply to it.** -/
theorem sends_iff (d : Directory) (call : Peer.Call) :
    s.Sends fresh r call ↔
      ∃ network network' : Peer.Network, (∀ call', call' ≠ call → network call' = network' call') ∧
        s.handle network fresh d r ≠ s.handle network' fresh d r := by
  constructor
  · intro h
    obtain ⟨c, id, hpeer, hr, hcall⟩ := IsForPeerUser.of_sends h
    -- Nobody listens to one network, and the other one cuts the body off.
    let reply : Peer.Response := ⟨200, call.url.render, { result := .error { message := "" } }⟩
    let cut : Peer.Network := fun call' =>
      if call' = call then { result := .ok reply } else Peer.Network.silent call'
    have hcut : cut call = { result := .ok reply } := if_pos rfl
    have htime : (cut call).time = 0 := by rw [hcut]; rfl
    refine ⟨.silent, cut, fun call' hne => (if_neg hne).symm, fun heq => ?_⟩
    have hunsent : (c.receive .silent call).result =
        .error { message := Peer.unsentMessage call.url, isConnect := true } := by
      rw [c.receive_of_time_eq_zero rfl]
      rfl
    have hreply : (c.receive cut call).result = .ok reply := by
      rw [c.receive_of_time_eq_zero htime, hcut]
    obtain ⟨f, hf, hunavailable⟩ := c.getUser_of_failed hcall hunsent rfl
    obtain ⟨f', hf', hinternal⟩ := c.getUser_of_cut hcall hreply (by decide : 200 < 400) rfl
    have hstatus := status_handle_of_error (d := d) hpeer hr h rfl hf
    rw [heq, status_handle_of_error hpeer hr h htime hf', hunavailable, hinternal] at hstatus
    cases hstatus
  · rintro ⟨network, network', hagree, hne⟩
    by_contra hsends
    refine hne (handle_congr fun call' hcall' => hagree call' ?_)
    rintro rfl
    exact hsends hcall'

/-! ## Asking for the user of a request -/

/-- **The peer is asked for exactly the user of the request, if its base address has neither a query
nor a fragment and the id is a plain segment, and only then.** One call is sent in any case. Those
for different plain ids are for different resources. -/
theorem sends_asksFor_iff (s : Service) (c : PeerClient) (base : Url) (hpeer : s.peer = some c)
    (hbase : c.HasBase base) (fresh : String) (r : Request) (id : String)
    (hr : s.IsForPeerUser r id) :
    ∃ call, (∀ call', s.Sends fresh r call' ↔ call' = call) ∧
      (call.AsksFor base id ↔
        (base.query = none ∧ base.fragment = none) ∧ Url.IsPlainSegment id) ∧
      (call.AsksFor base id → ∀ fresh' r' id' call', s.IsForPeerUser r' id' →
        s.Sends fresh' r' call' → Url.IsPlainSegment id' → call'.url = call.url → id' = id) := by
  obtain ⟨u, hcall, -⟩ := c.exists_call? hbase id (r.id fresh)
  have hasks := PeerClient.asksFor_call_iff hbase hcall
  refine ⟨_, fun call' => ?_, hasks, ?_⟩
  · rw [sends_iff_call? hpeer hr, hcall, Option.some.injEq]
    exact eq_comm
  · intro h fresh' r' id' call' hr' hsends hplain hurl
    rw [sends_iff_call? hpeer hr'] at hsends
    have h' : call'.AsksFor base id' :=
      (PeerClient.asksFor_call_iff hbase hsends).2 ⟨(hasks.1 h).1, hplain⟩
    exact h'.id_eq h hurl

end Calls

/-- A space, a sign that begins no group and an accent do not keep the peer from being asked for a
user, and the slashes at the end of its base address are not doubled. -/
theorem sends_asksFor_iff_accented :
    let c : PeerClient := ⟨{ baseUrl := "http://peer:8080/api//" }, by decide⟩
    let s : Service := { peer := some c }
    let base : Url := ⟨false, {}, "peer", some 8080, ["api"], none, none⟩
    let r : Request := { target := "/peer/users/a%20b%25%C3%A9" }
    s.peer = some c ∧ c.HasBase base ∧ s.IsForPeerUser r "a b%é" ∧
      ∃ call, (∀ call', s.Sends "r-1" r call' ↔ call' = call) ∧ call.AsksFor base "a b%é" := by
  intro c s base r
  have hbase : c.HasBase base :=
    ⟨by decide +kernel, "http://peer:8080/ap".toList, 'i', by decide +kernel, by decide, by decide,
      by decide⟩
  have hr : s.IsForPeerUser r "a b%é" :=
    ⟨⟨.get, .getPeerUser "a%20b%25%C3%A9"⟩, "a%20b%25%C3%A9", by decide +kernel, rfl,
      by decide +kernel⟩
  have hplain : Url.IsPlainSegment "a b%é" := by decide
  obtain ⟨call, hsends, hasks, -⟩ := sends_asksFor_iff s c base rfl hbase "r-1" r "a b%é" hr
  exact ⟨rfl, hbase, hr, call, hsends, hasks.2 ⟨⟨rfl, rfl⟩, hplain⟩⟩

/-- The peer is not always asked for the user of the request: this one asks for its health. -/
theorem not_always_asksFor :
    ¬ ∀ (s : Service) (c : PeerClient) (base : Url) (fresh : String) (r : Request) (id : String)
        (call : Peer.Call), s.peer = some c → c.HasBase base →
      base.query = none ∧ base.fragment = none → s.IsForPeerUser r id → s.Sends fresh r call →
        call.AsksFor base id := by
  intro h
  let c : PeerClient := ⟨{ baseUrl := "http://peer" }, by decide⟩
  let s : Service := { peer := some c }
  let base : Url := ⟨false, {}, "peer", none, [""], none, none⟩
  let r : Request := { target := "/peer/users/..%2Fhealthz" }
  have hbase : c.HasBase base :=
    ⟨by decide +kernel, "http://pee".toList, 'r', by decide +kernel, by decide, by decide,
      by decide⟩
  have hr : s.IsForPeerUser r "../healthz" :=
    ⟨⟨.get, .getPeerUser "..%2Fhealthz"⟩, "..%2Fhealthz", by decide +kernel, rfl, by decide +kernel⟩
  have hsends :
      s.Sends "r-1" r ⟨"GET", ⟨false, {}, "peer", none, ["healthz"], none, none⟩, "r-1", none⟩ :=
    (sends_iff_call? rfl hr _).2 (by decide +kernel)
  obtain ⟨-, segment, -, hurl⟩ := h s c base "r-1" r "../healthz" _ rfl hbase ⟨rfl, rfl⟩ hr hsends
  have hlength : 1 = 2 := congrArg (fun u : Url => u.segments.length) hurl
  cases hlength

end Service

end Rest

end Chassis
