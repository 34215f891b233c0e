import LibHttp2.ChunkedInput

/-!
# Two endpoints

A client and a server, each with its application, and the two directions between them. What an
endpoint hands to its send service travels in order and arrives in chunks of any size, at any time;
calls, at either end, and arrivals interleave in any order (`Network.Reachable`).

Every endpoint handles the frames that its peer sent: no other, in their order, and each of them
once it has arrived, unless the endpoint gave up (`Delivered`, `framesDelivered`).
-/

namespace LibHttp2

open Program

variable {σ τ : Type}

/-! ## Runs of two endpoints -/

/-- The bytes handed to the send service. -/
def output (w : World σ) : Bytes := (handed w.trace).flatten

structure Network (σ τ : Type) where
  client : World σ
  server : World τ
  toClient : Link
  toServer : Link

namespace Network

variable (a : App σ) (b : App τ) (K : Conditions σ) (L : Conditions τ)

/-- A call at either end, or the arrival of a chunk of what the other one has sent. -/
inductive Step : Network σ τ → Network σ τ → Prop
  | clientCall {n : Network σ τ} {depth : ℕ} {c : Call} {reply : Reply} {w' : World σ} :
      a.execWhen K.call depth c n.client = .ok (reply, w') → Step n { n with client := w' }
  | serverCall {n : Network σ τ} {depth : ℕ} {c : Call} {reply : Reply} {w' : World τ} :
      b.execWhen L.call depth c n.server = .ok (reply, w') → Step n { n with server := w' }
  | toClient {n : Network σ τ} {chunk : Bytes} {l : Link} {w' : World σ} :
      n.toClient.arrived ++ chunk <+: output n.server →
      Receives a K chunk n.toClient n.client l w' → Step n { n with client := w', toClient := l }
  | toServer {n : Network σ τ} {chunk : Bytes} {l : Link} {w' : World τ} :
      n.toServer.arrived ++ chunk <+: output n.client →
      Receives b L chunk n.toServer n.server l w' → Step n { n with server := w', toServer := l }

inductive Reachable : Network σ τ → Prop
  | init (eventHandler eventHandler' flowControl flowControl' : Bool) (seed seed' : UInt32) (x : σ)
      (y : τ) : Reachable ⟨⟨.init true eventHandler flowControl seed, x, []⟩,
        ⟨.init false eventHandler' flowControl' seed', y, []⟩, .init, .init⟩
  | step {n n' : Network σ τ} : Reachable n → Step a b K L n n' → Reachable n'

variable {a b K L}

/-- Either endpoint is one that is reached alone. -/
theorem Reachable.endpoints {n : Network σ τ} (h : Reachable a b K L n) :
    (a.ReachableWhen K n.client ∧ n.client.conn.clientSide = true) ∧
      b.ReachableWhen L n.server ∧ n.server.conn.clientSide = false := by
  have hside : ∀ {υ : Type} {app : App υ} {J : Conditions υ} {chunk : Bytes} {l l' : Link}
      {w w' : World υ}, app.ReachableWhen J w → Receives app J chunk l w l' w' →
      app.ReachableWhen J w' ∧ w'.conn.clientSide = w.conn.clientSide := by
    intro υ app J chunk l l' w w' hw hrun
    refine ⟨?_, hrun.later.clientSide⟩
    cases hrun with
    | intro _ _ hbuf harrives hreceived => exact .received hw hbuf harrives hreceived
  induction h with
  | init => exact ⟨⟨.init _ _ _ _ _, rfl⟩, .init _ _ _ _ _, rfl⟩
  | step _ hstep ih =>
    obtain ⟨⟨hclient, hside1⟩, hserver, hside2⟩ := ih
    cases hstep with
    | @clientCall depth c reply w' hrun =>
      have hacts : Acts _ w' := (Acts.allowsCalls a).execWhen K.call depth c hrun
      exact ⟨⟨.call hclient hrun, hacts.clientSide.trans hside1⟩, hserver, hside2⟩
    | @serverCall depth c reply w' hrun =>
      have hacts : Acts _ w' := (Acts.allowsCalls b).execWhen L.call depth c hrun
      exact ⟨⟨hclient, hside1⟩, .call hserver hrun, hacts.clientSide.trans hside2⟩
    | toClient _ hrun =>
      obtain ⟨hw, hkeep⟩ := hside hclient hrun
      exact ⟨⟨hw, hkeep.trans hside1⟩, hserver, hside2⟩
    | toServer _ hrun =>
      obtain ⟨hw, hkeep⟩ := hside hserver hrun
      exact ⟨⟨hclient, hside1⟩, hw, hkeep.trans hside2⟩

end Network

/-! ## One direction -/

/-- What has arrived was sent, and the receiver has handled its frames. -/
structure Conveys (sender : World σ) (receiver : World τ) (l : Link) : Prop where
  sent : l.arrived <+: output sender
  digests : l.Digests receiver

namespace Conveys

variable {sender sender' : World σ} {receiver receiver' : World τ} {l l' : Link}

/-- The sender goes on. -/
theorem send (h : Conveys sender receiver l) (hsender : Later sender sender') :
    Conveys sender' receiver l := by
  refine ⟨h.sent.trans ?_, h.digests⟩
  obtain ⟨d, hd⟩ := hsender.handed
  unfold output
  rw [← hd, List.flatten_append]
  exact List.prefix_append _ _

theorem act (h : Conveys sender receiver l) (hacts : Acts receiver receiver') :
    Conveys sender receiver' l := ⟨h.sent, h.digests.acts hacts⟩

theorem receive (h : Conveys sender receiver l) {app : App τ} {K : Conditions τ} {chunk : Bytes}
    (hsent : l.arrived ++ chunk <+: output sender)
    (hrun : Receives app K chunk l receiver l' receiver') : Conveys sender receiver' l' := by
  refine ⟨?_, h.digests.receives hrun⟩
  cases hrun with
  | @intro depth n _ _ _ _ _ _ =>
    unfold Link.after
    split_ifs <;> exact hsent

end Conveys

theorem Network.Reachable.conveys {a : App σ} {b : App τ} {K : Conditions σ} {L : Conditions τ}
    {n : Network σ τ} (h : Network.Reachable a b K L n) :
    Conveys n.client n.server n.toServer ∧ Conveys n.server n.client n.toClient := by
  induction h with
  | init => exact ⟨⟨List.nil_prefix, .init _ _ _ _ _⟩, List.nil_prefix, .init _ _ _ _ _⟩
  | step _ hstep ih =>
    obtain ⟨hup, hdown⟩ := ih
    cases hstep with
    | @clientCall depth c reply w' hrun =>
      have hacts : Acts _ w' := (Acts.allowsCalls a).execWhen K.call depth c hrun
      exact ⟨hup.send ((Later.stepGuarantee a).calls.execWhen K.call depth c hrun), hdown.act hacts⟩
    | @serverCall depth c reply w' hrun =>
      have hacts : Acts _ w' := (Acts.allowsCalls b).execWhen L.call depth c hrun
      exact ⟨hup.act hacts, hdown.send ((Later.stepGuarantee b).calls.execWhen L.call depth c hrun)⟩
    | toClient hsent hrun => exact ⟨hup.send hrun.later, hdown.receive hsent hrun⟩
    | toServer hsent hrun => exact ⟨hup.receive hsent hrun, hdown.send hrun.later⟩

/-! ## What is on the wire -/

/-- The frames sent, slice by slice. -/
def sentFrames (trace : List Obs) : List (Http2FrameHdr × Bytes) :=
  (emitted trace).flatMap http2Framing.items

/-- No slice is too long for the length field of a frame. -/
def FitsLength (trace : List Obs) : Prop :=
  ∀ s ∈ emitted trace, s.length < 2 ^ 24 + http2FrameHeaderSize

theorem sentFrames_append (l l' : List Obs) :
    sentFrames (l ++ l') = sentFrames l ++ sentFrames l' := by
  unfold sentFrames
  rw [emitted_append, List.flatMap_append]

theorem FitsLength.append {l l' : List Obs} (h : FitsLength (l ++ l')) :
    FitsLength l ∧ FitsLength l' := by
  unfold FitsLength at h ⊢
  rw [emitted_append] at h
  exact ⟨fun s hs => h s (List.mem_append_left _ hs), fun s hs => h s (List.mem_append_right _ hs)⟩

/-- What an endpoint that sends in order has sent. -/
structure SendsWell (w : World σ) : Prop where
  order : SendsInOrder 0 w
  handed : ∀ s ∈ handed w.trace, s = preface ∨ s ∈ emitted w.trace
  sends : ∀ s ∈ emitted w.trace, (Obs.emitted s).Sends

theorem sendsWell {app : App σ} (happ : app.Reliable) {K : Conditions σ}
    (hcall : ∀ w call, K.call w call → Orderly w call)
    (hnested : ∀ w call, K.nested w call → Orderly w call) {w : World σ}
    (h : app.ReachableWhen K w) : SendsWell w where
  order := h.induct (sendsInOrder_invariant happ hcall hnested)
  handed := (h.induct (onlyEmitted_invariant app K)).handed
  sends _ hs := h.induct (sends_invariant app K) _ (mem_emitted.mp hs)

/-- Frames do not begin like the preface. -/
theorem not_preface_packFrames {fs : List Http2Frame} (h : ∀ f ∈ fs, f.Sent) (hne : fs ≠ [])
    (rest : Bytes) : ¬ preface <+: packFrames fs ++ rest := by
  obtain ⟨f, fs', rfl⟩ := List.exists_cons_of_ne_nil hne
  rintro ⟨t, ht⟩
  obtain ⟨type, htype⟩ := (h f List.mem_cons_self).type
  have hthree := type_frame f (packFrames fs' ++ rest)
  rw [← List.append_assoc, ← packFrames_cons, ← ht, htype,
    List.getElem?_append_left (by decide)] at hthree
  cases type <;> exact absurd hthree (by decide)

theorem flatten_packFrames {l : List Bytes}
    (h : ∀ s ∈ l, ∃ fs : List Http2Frame, (∀ f ∈ fs, f.Sent) ∧ s = packFrames fs) :
    ∃ fs : List Http2Frame, (∀ f ∈ fs, f.Sent) ∧ l.flatten = packFrames fs := by
  induction l with
  | nil => exact ⟨[], by simp, rfl⟩
  | cons s rest ih =>
    obtain ⟨fs, hfs, hs⟩ := h s List.mem_cons_self
    obtain ⟨gs, hgs, hrest⟩ := ih fun t ht => h t (List.mem_cons_of_mem _ ht)
    refine ⟨fs ++ gs, fun f hf => ?_, ?_⟩
    · rcases List.mem_append.mp hf with hf | hf
      · exact hfs f hf
      · exact hgs f hf
    · rw [List.flatten_cons, hs, hrest, packFrames_append]

theorem filter_frames {l : List Bytes} (h : preface ∉ l) : l.filter (· ≠ preface) = l := by
  refine List.filter_eq_self.mpr fun s hs => ?_
  simp only [ne_eq, decide_eq_true_eq]
  rintro rfl
  exact h hs

namespace SendsWell

variable {w : World σ} (hw : SendsWell w)

include hw

theorem frames_of_handed {l : List Bytes} (hl : ∀ s ∈ l, s ∈ LibHttp2.handed w.trace)
    (hne : preface ∉ l) :
    ∃ fs : List Http2Frame, (∀ f ∈ fs, f.Sent) ∧ l.flatten = packFrames fs := by
  refine flatten_packFrames fun s hs => (hw.sends s ?_).frames
  refine (hw.handed s (hl s hs)).resolve_left fun heq => hne (heq ▸ hs)

/-- A client whose bytes begin with the preface has sent its frames behind it. -/
theorem client_output (hpre : preface <+: output w) :
    (output w).drop prefaceSize = (handedFrames w.trace).flatten := by
  have hcount : (LibHttp2.handed w.trace).count preface ≤ 1 := by
    rw [hw.order.prefaces]
    unfold Http2Connection.prefaces
    cases (w.conn.clientSide && w.conn.prefaceSent) <;> decide
  by_cases hmem : preface ∈ LibHttp2.handed w.trace
  · obtain ⟨before, behind, hsplit, hbefore⟩ := List.eq_append_cons_of_mem hmem
    have hbehind : preface ∉ behind := by
      rw [hsplit, List.count_append, List.count_cons_self] at hcount
      exact List.count_eq_zero.mp (by omega)
    obtain ⟨fs, hfs, hflat⟩ := hw.frames_of_handed (l := before)
      (fun s hs => hsplit ▸ List.mem_append_left _ hs) hbefore
    have hnil : before.flatten = [] := by
      by_contra hne
      refine not_preface_packFrames hfs (fun hfs => hne ?_) (preface ++ behind.flatten) ?_
      · rw [hflat, hfs]
        rfl
      · have hout : output w = packFrames fs ++ (preface ++ behind.flatten) := by
          unfold output
          rw [hsplit, List.flatten_append, List.flatten_cons, hflat]
        rwa [← hout]
    unfold output handedFrames
    rw [hsplit, List.flatten_append, hnil, List.flatten_cons, List.filter_append,
      List.filter_cons_of_neg (by simp), List.flatten_append, filter_frames hbefore,
      filter_frames hbehind, hnil, List.nil_append, List.nil_append, ← length_preface]
    exact List.drop_left
  · obtain ⟨fs, hfs, hflat⟩ := hw.frames_of_handed (fun s hs => hs) hmem
    have hout : output w = packFrames fs := hflat
    exfalso
    by_cases hnil : fs = []
    · rw [hout, hnil] at hpre
      exact absurd hpre (by decide)
    · rw [hout, ← List.append_nil (packFrames fs)] at hpre
      exact not_preface_packFrames hfs hnil _ hpre

theorem server_output (hserver : w.conn.clientSide = false) :
    output w = (handedFrames w.trace).flatten := by
  have hnone : preface ∉ LibHttp2.handed w.trace := by
    have hcount := hw.order.prefaces
    unfold Http2Connection.prefaces at hcount
    rw [hserver] at hcount
    exact List.count_eq_zero.mp hcount
  unfold output handedFrames
  rw [filter_frames hnone]

/-- What the peer's frames are in is what was emitted, but for what waits. -/
theorem frameBytes_output (hpre : w.conn.clientSide = true → preface <+: output w) :
    frameBytes (!w.conn.clientSide) (output w) ++ w.conn.sendBuffer.bytes =
      (emitted w.trace).flatten := by
  rw [← hw.order.order]
  congr 1
  unfold frameBytes
  cases hside : w.conn.clientSide with
  | true =>
    rw [if_pos (hpre hside)]
    exact hw.client_output (hpre hside)
  | false =>
    exact hw.server_output hside

theorem frameBytes_mono :
    frameBytes (!w.conn.clientSide) (output w) <+: (emitted w.trace).flatten := by
  by_cases hpre : w.conn.clientSide = true → preface <+: output w
  · rw [← hw.frameBytes_output hpre]
    exact List.prefix_append _ _
  · rw [Classical.not_imp] at hpre
    unfold frameBytes
    rw [hpre.1, if_neg (by simp), if_neg hpre.2]
    exact List.nil_prefix

/-- The frames of the slices are those of the bytes. -/
theorem items_emitted (hfits : FitsLength w.trace) :
    http2Framing.items (emitted w.trace).flatten = sentFrames w.trace := by
  refine (Framing.Whole.flatten fun s hs => ?_).2
  obtain ⟨fs, -, rfl⟩ := (hw.sends s hs).frames
  refine (items_packFrames fun f hf => ?_).1
  have hlen := length_le_packFrames hf
  have := hfits _ hs
  omega

end SendsWell

/-- The receiver has handled the first frames of the sender. Unless a call of `ReceivedData` failed,
they are, once the preface is there, those that have arrived in full, and before it none; so all of
them once all has arrived. -/
structure Delivered (sender : World σ) (receiver : World τ) (l : Link) : Prop where
  frames : handledFrames receiver.trace <+: sentFrames sender.trace
  waiting : l.closed = false → receiver.conn.finishHandshake = false →
    l.arrived.length < prefaceSize ∧ handledFrames receiver.trace = []
  arrived : l.closed = false → receiver.conn.finishHandshake = true →
    handledFrames receiver.trace =
      http2Framing.items (frameBytes receiver.conn.clientSide l.arrived)
  all : l.closed = false → receiver.conn.finishHandshake = true → l.arrived = output sender →
    sender.conn.sendBuffer.bytes = [] → handledFrames receiver.trace = sentFrames sender.trace

theorem Conveys.delivered {sender : World σ} {receiver : World τ} {l : Link}
    (h : Conveys sender receiver l) (hsides : receiver.conn.clientSide = !sender.conn.clientSide)
    (hwell : SendsWell sender) (hfits : FitsLength sender.trace) : Delivered sender receiver l where
  frames := by
    rw [← hwell.items_emitted hfits]
    refine h.digests.closed.trans (Framing.items_prefix ?_)
    rw [hsides]
    exact (frameBytes_mono _ h.sent).trans hwell.frameBytes_mono
  waiting hopen hdone := (h.digests.waiting hopen hdone).2
  arrived hopen hdone := (h.digests.ready hopen hdone).2.1
  all hopen hdone harrived hempty := by
    obtain ⟨hpre, hframes, -⟩ := h.digests.ready hopen hdone
    have hall := hwell.frameBytes_output fun hclient => by
      rw [← harrived]
      exact hpre (by rw [hsides, hclient]; rfl)
    rw [hempty, List.append_nil] at hall
    rw [hframes, ← hwell.items_emitted hfits, hsides, harrived, hall]

/-- Every call, also of a callback, keeps the order of what is sent. -/
structure Conditions.KeepsOrder (K : Conditions σ) : Prop where
  call : ∀ w call, K.call w call → Orderly w call
  nested : ∀ w call, K.nested w call → Orderly w call

section Runs

variable {a : App σ} {b : App τ} (ha : a.Reliable) (hb : b.Reliable) {K : Conditions σ}
  {L : Conditions τ} (hK : K.KeepsOrder) (hL : L.KeepsOrder) {n : Network σ τ}

include ha hK in
theorem Network.Reachable.toServer_delivered (h : Network.Reachable a b K L n)
    (hfits : FitsLength n.client.trace) : Delivered n.client n.server n.toServer := by
  obtain ⟨⟨hclient, hside1⟩, -, hside2⟩ := h.endpoints
  exact h.conveys.1.delivered (by rw [hside1, hside2]; rfl)
    (sendsWell ha hK.call hK.nested hclient) hfits

include hb hL in
theorem Network.Reachable.toClient_delivered (h : Network.Reachable a b K L n)
    (hfits : FitsLength n.server.trace) : Delivered n.server n.client n.toClient := by
  obtain ⟨⟨-, hside1⟩, hserver, hside2⟩ := h.endpoints
  exact h.conveys.2.delivered (by rw [hside1, hside2]; rfl)
    (sendsWell hb hL.call hL.nested hserver) hfits

end Runs

theorem keepsOrder_keepsOrder : (keepsOrder : Conditions σ).KeepsOrder :=
  ⟨fun _ _ => id, fun _ _ => id⟩

/-- **What one endpoint sends, the other one handles.** Between two endpoints whose send services
take all they are given, and however calls and arrivals interleave and the bytes are cut, each
handles frames that the other has sent, in their order; behind the preface, and unless it gave up,
exactly those that have arrived in full. -/
theorem framesDelivered {a : App σ} {b : App τ} (ha : a.Reliable) (hb : b.Reliable)
    {n : Network σ τ} (h : Network.Reachable a b keepsOrder keepsOrder n)
    (hclient : FitsLength n.client.trace) (hserver : FitsLength n.server.trace) :
    Delivered n.client n.server n.toServer ∧ Delivered n.server n.client n.toClient :=
  ⟨h.toServer_delivered ha keepsOrder_keepsOrder hclient,
    h.toClient_delivered hb keepsOrder_keepsOrder hserver⟩

/-! ## Networks that run -/

namespace Network

/-- A call at either end, or the arrival of the next bytes. -/
inductive Input
  | client (call : Call)
  | server (call : Call)
  | toClient (size : ℕ)
  | toServer (size : ℕ)

/-- Whether a call keeps the order of what is sent. -/
def orderly (w : World Unit) : Call → Bool
  | .setBufferedMode enable => enable || w.conn.sendBuffer.slices.isEmpty
  | .flush => w.conn.sendBuffer.bytes.length < 2 ^ 31
  | _ => true

theorem orderly_of {w : World Unit} {call : Call} (h : orderly w call = true) :
    Orderly w call := by
  refine ⟨?_, ?_⟩
  · rintro rfl
    have hempty : (false || w.conn.sendBuffer.slices.isEmpty) = true := h
    simpa using hempty
  · rintro rfl
    exact of_decide_eq_true h

def quietCall (call : Call) (w : World Unit) : Except Fault (World Unit) := do
  if orderly w call then
    let r ← App.quiet.exec 4 call w
    return r.2
  else throw .reentrancy

def quietReceives (l : Link) (sent : Bytes) (size : ℕ) (w : World Unit) :
    Except Fault (Link × World Unit) := do
  let chunk := (sent.drop l.arrived.length).take size
  if l.closed = false ∧ (l.kept ++ chunk).length < 2 ^ 31 then
    let r ← App.quiet.receivedData 4 (l.kept ++ chunk) w
    return (l.after chunk r.1, r.2)
  else throw .reentrancy

def quietStep (n : Network Unit Unit) : Input → Except Fault (Network Unit Unit)
  | .client call => do
    let w ← quietCall call n.client
    return { n with client := w }
  | .server call => do
    let w ← quietCall call n.server
    return { n with server := w }
  | .toClient size => do
    let r ← quietReceives n.toClient (output n.server) size n.client
    return { n with client := r.2, toClient := r.1 }
  | .toServer size => do
    let r ← quietReceives n.toServer (output n.client) size n.server
    return { n with server := r.2, toServer := r.1 }

/-- A network of quiet applications, from its start on. -/
def quietRun (inputs : List Input) : Except Fault (Network Unit Unit) :=
  inputs.foldlM quietStep ⟨App.quietWorld true, App.quietWorld false, .init, .init⟩

/-- Conditions on calls only. -/
structure OnCalls (K : Conditions Unit) : Prop where
  received : ∀ w buf, K.received w buf
  frame : ∀ w hdr payload, K.frame w hdr payload

/-- Where a call keeps the order, it meets the conditions. -/
def Input.Meets (K L : Conditions Unit) : Input → Prop
  | .client call => ∀ w, Orderly w call → K.call w call
  | .server call => ∀ w, Orderly w call → L.call w call
  | _ => True

theorem quietCall_execWhen {A : World Unit → Call → Prop} {call : Call} {w w' : World Unit}
    (hA : Orderly w call → A w call) (h : quietCall call w = .ok w') :
    ∃ reply, App.quiet.execWhen A 4 call w = .ok (reply, w') := by
  unfold quietCall at h
  split_ifs at h with horderly
  obtain ⟨⟨reply, w1⟩, hrun, hdone⟩ := except_bind_ok.mp h
  cases hdone
  exact ⟨reply, (App.quiet_execWhen (hA (orderly_of horderly))).trans hrun⟩

theorem quietReceives_receives {K : Conditions Unit} (hK : OnCalls K) {l l' : Link} {sent : Bytes}
    {size : ℕ} {w w' : World Unit} (hsent : l.arrived <+: sent)
    (h : quietReceives l sent size w = .ok (l', w')) :
    ∃ chunk, l.arrived ++ chunk <+: sent ∧ Receives App.quiet K chunk l w l' w' := by
  unfold quietReceives at h
  dsimp only at h
  split_ifs at h with hopen
  obtain ⟨⟨k, w1⟩, hrun, hdone⟩ := except_bind_ok.mp h
  cases hdone
  refine ⟨_, ?_, .intro hopen.1 hopen.2 (hK.received _ _) (fun _ _ _ _ => hK.frame _ _ _) hrun⟩
  obtain ⟨rest, rfl⟩ := hsent
  rw [List.drop_left]
  exact (List.prefix_append_right_inj _).mpr (List.take_prefix _ _)

section Quiet

variable {K L : Conditions Unit} (hK : OnCalls K) (hL : OnCalls L)

include hK hL

theorem reachable_quietStep {n n' : Network Unit Unit} {i : Input} (hi : i.Meets K L)
    (hn : Reachable App.quiet App.quiet K L n) (h : quietStep n i = .ok n') :
    Reachable App.quiet App.quiet K L n' := by
  obtain ⟨hup, hdown⟩ := hn.conveys
  cases i with
  | client call =>
    obtain ⟨w, hcall, hdone⟩ := except_bind_ok.mp h
    cases hdone
    obtain ⟨reply, hrun⟩ := quietCall_execWhen (hi _) hcall
    exact hn.step (.clientCall hrun)
  | server call =>
    obtain ⟨w, hcall, hdone⟩ := except_bind_ok.mp h
    cases hdone
    obtain ⟨reply, hrun⟩ := quietCall_execWhen (hi _) hcall
    exact hn.step (.serverCall hrun)
  | toClient size =>
    obtain ⟨⟨l, w⟩, hreceives, hdone⟩ := except_bind_ok.mp h
    cases hdone
    obtain ⟨chunk, hsent, hrun⟩ := quietReceives_receives hK hdown.sent hreceives
    exact hn.step (.toClient hsent hrun)
  | toServer size =>
    obtain ⟨⟨l, w⟩, hreceives, hdone⟩ := except_bind_ok.mp h
    cases hdone
    obtain ⟨chunk, hsent, hrun⟩ := quietReceives_receives hL hup.sent hreceives
    exact hn.step (.toServer hsent hrun)

theorem reachable_quietRun {inputs : List Input} (hinputs : ∀ i ∈ inputs, i.Meets K L)
    {n : Network Unit Unit} (h : quietRun inputs = .ok n) :
    Reachable App.quiet App.quiet K L n := by
  have hfold : ∀ (l : List Input), (∀ i ∈ l, i.Meets K L) → ∀ {m : Network Unit Unit},
      Reachable App.quiet App.quiet K L m → l.foldlM quietStep m = .ok n →
      Reachable App.quiet App.quiet K L n := by
    intro l
    induction l with
    | nil =>
      intro _ m hm hdone
      cases hdone
      exact hm
    | cons i rest ih =>
      intro hl m hm hrun
      rw [List.foldlM_cons] at hrun
      obtain ⟨m', hstep, hrest⟩ := except_bind_ok.mp hrun
      exact ih (fun j hj => hl j (List.mem_cons_of_mem _ hj))
        (reachable_quietStep hK hL (hl i List.mem_cons_self) hm hstep) hrest
  exact hfold inputs hinputs (.init _ _ _ _ _ _ _ _) h

end Quiet

/-- A client sends a request with three bytes and a PING, which arrive in two pieces; the server
reads a byte, and its answers arrive at once. -/
def requestInputs : List Input :=
  [.client .createStream, .client (.sendHeaders 0 [([97], [98, 99])] false),
    .client (.sendData 0 ⟨[1, 2, 3], by decide⟩ true), .client (.sendPing 7), .toServer 45,
    .toServer 100, .server (.readData 0 1), .toClient 100]

theorem reachable_keepsOrder {inputs : List Input} {n : Network Unit Unit}
    (h : quietRun inputs = .ok n) : Reachable App.quiet App.quiet keepsOrder keepsOrder n := by
  refine reachable_quietRun ⟨fun _ _ => trivial, fun _ _ _ => trivial⟩
    ⟨fun _ _ => trivial, fun _ _ _ => trivial⟩ (fun i _ => ?_) h
  cases i with
  | client _ => exact fun _ => id
  | server _ => exact fun _ => id
  | _ => trivial

end Network

instance (trace : List Obs) : Decidable (FitsLength trace) :=
  inferInstanceAs (Decidable (∀ s ∈ emitted trace, s.length < 2 ^ 24 + http2FrameHeaderSize))

theorem framesDelivered_request : ∃ n : Network Unit Unit,
    ((handledFrames n.server.trace).length = 4 ∧ (handledFrames n.client.trace).length = 5) ∧
      Delivered n.client n.server n.toServer ∧ Delivered n.server n.client n.toClient := by
  obtain ⟨n, hrun, hframes, hclient, hserver⟩ := except_ok_of_decide
    (x := Network.quietRun Network.requestInputs)
    (P := fun n => ((handledFrames n.server.trace).length = 4 ∧
      (handledFrames n.client.trace).length = 5) ∧ FitsLength n.client.trace ∧
      FitsLength n.server.trace) (by decide +kernel)
  exact ⟨n, hframes, framesDelivered App.quiet_reliable App.quiet_reliable
    (Network.reachable_keepsOrder hrun) hclient hserver⟩

end LibHttp2
