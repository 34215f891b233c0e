import LibHttp2.Invariants

/-!
# The peer's stream limit

`create_stream` compares the peer's MAX_CONCURRENT_STREAMS, which is the last one received
(`limitStored_reachable`), with the size of the stream map, and takes 0 for no limit. The map also
holds the streams that the peer opened.

`createStream_limit`: where GOAWAY and the stream ids do not stand in the way, the peer's limit is
applied exactly if and only if it is not 0, and does not lie between the streams of either side.
-/

namespace LibHttp2

open Program

variable {σ : Type}

/-- The value of a MAX_CONCURRENT_STREAMS of the peer. -/
def Obs.maxConcurrentStreams : Obs → Option ℕ
  | .remoteSetting id value => if id = idMaxConcurrentStreams then some value else none
  | _ => none

/-- The last MAX_CONCURRENT_STREAMS received, or `2 ^ 32 - 1`. -/
def peerLimit (trace : List Obs) : ℕ :=
  (trace.filterMap Obs.maxConcurrentStreams).getLastD (2 ^ 32 - 1)

/-- The streams in the map that were initiated locally. -/
def Http2Connection.localStreams (c : Http2Connection) : ℕ :=
  c.streams.countP fun entry => !c.remoteParity entry.1

/-- `CreateStream` returns a stream. -/
def Creates (app : App σ) (depth : ℕ) (w : World σ) : Prop :=
  ∃ r w', app.exec (depth + 1) .createStream w = .ok (.stream (some r), w')

/-! ## The limit stored is the last one received -/

structure LimitStored (w : World σ) : Prop where
  last : w.conn.remoteSetting idMaxConcurrentStreams = peerLimit w.trace
  length : w.conn.remoteSettings.length = http2NumberOfSettings

namespace LimitStored

variable {w w' : World σ}

theorem add {d : List Obs} (hsettings : w'.conn.remoteSettings = w.conn.remoteSettings)
    (htrace : w'.trace = w.trace ++ d) (hd : ∀ o ∈ d, o.maxConcurrentStreams = none)
    (h : LimitStored w) : LimitStored w' := by
  refine ⟨?_, hsettings ▸ h.length⟩
  have hnone : d.filterMap Obs.maxConcurrentStreams = [] := List.filterMap_eq_nil_iff.mpr hd
  unfold peerLimit Http2Connection.remoteSetting
  rw [hsettings, htrace, List.filterMap_append, hnone, List.append_nil]
  exact h.last

theorem of_log {o : Obs} (hsettings : w'.conn.remoteSettings = w.conn.remoteSettings)
    (htrace : w'.trace = w.trace ++ [o]) (ho : o.maxConcurrentStreams = none)
    (h : LimitStored w) : LimitStored w' :=
  h.add hsettings htrace (List.forall_mem_singleton.mpr ho)

theorem of_conn (hsettings : w'.conn.remoteSettings = w.conn.remoteSettings)
    (htrace : w'.trace = w.trace) (h : LimitStored w) : LimitStored w' :=
  h.add hsettings (htrace.trans (List.append_nil _).symm) (List.forall_mem_nil _)

theorem of_closing {r : Ref} {errorCode : ℕ} {s s' : Http2Stream}
    (hsettings : w'.conn.remoteSettings = w.conn.remoteSettings)
    (htrace : w'.trace = w.trace ++ closing r errorCode s s') (h : LimitStored w) :
    LimitStored w' :=
  h.add hsettings htrace fun o ho => by
    rw [mem_closing ho]
    rfl

/-- A setting is stored. -/
theorem store (h : LimitStored w) {id value : ℕ} (hid : id < http2NumberOfSettings) :
    LimitStored
      { w with
        conn := { w.conn with remoteSettings := w.conn.remoteSettings.set id value }
        trace := w.trace ++ [.remoteSetting id value] } := by
  refine ⟨?_, by simpa using h.length⟩
  have hlast := h.last
  unfold peerLimit Http2Connection.remoteSetting at hlast ⊢
  simp only [List.getD_eq_getElem?_getD, List.filterMap_append] at hlast ⊢
  by_cases hmax : id = idMaxConcurrentStreams
  · subst hmax
    rw [List.getElem?_set_self (by rw [h.length]; exact hid)]
    simp [Obs.maxConcurrentStreams]
  · rw [List.getElem?_set_ne hmax, hlast]
    simp [Obs.maxConcurrentStreams, hmax]

theorem of_step (h : SendStep w w') : LimitStored w → LimitStored w' := by
  cases h with
  | emit h =>
    cases h with
    | @log o ho _ =>
      refine of_log rfl rfl ?_
      cases o <;> first | rfl | exact ho.elim
    | conn hc => exact of_conn (congrArg (·.remoteSettings) hc) rfl
  | frame | create | read => exact of_log rfl rfl rfl
  | app | stream => exact of_conn rfl rfl
  | close => exact of_closing rfl rfl

theorem of_receive (h : ReceiveStep (fun _ => True) w w') : LimitStored w → LimitStored w' := by
  cases h with
  | @log o ho =>
    refine of_log rfl rfl ?_
    cases o <;> first | rfl | exact ho.elim
  | conn hc =>
    exact of_conn (Http2Connection.observe_frameCore (·.remoteSettings) (fun _ => rfl) hc) rfl
  | stream => exact of_closing rfl rfl
  | remoteSetting hid _ => exact fun hw => hw.store hid
  | refused | known | goaway => exact of_log rfl rfl rfl
  | _ => exact of_conn rfl rfl

end LimitStored

theorem stepInvariant_limitStored (app : App σ) :
    StepInvariant app (LimitStored : World σ → Prop) where
  init _ _ _ _ _ := ⟨rfl, rfl⟩
  calls := .of_steps app LimitStored.of_step (fun _ _ => .of_log rfl rfl rfl)
    (fun _ _ => .of_conn rfl rfl) (fun _ _ _ _ _ => .of_closing rfl rfl)
    fun _ _ => .of_conn rfl rfl
  receive := LimitStored.of_receive
  noted _ _ _ := .of_log rfl rfl rfl
  block _ _ := .of_conn rfl rfl
  append _ _ _ _ _ := .of_conn rfl rfl
  table _ _ := .of_conn rfl rfl
  opening _ _ _ _ := .of_log rfl rfl rfl
  requested _ := .of_conn rfl rfl
  credit _ _ _ := .of_log rfl rfl rfl

theorem limitStored_reachable {app : App σ} {w : World σ} (h : app.Reachable w) : LimitStored w :=
  (stepInvariant_limitStored app).of_reachable h.reachableWhen

/-! ## When a stream is created -/

theorem creates_iff {app : App σ} {depth : ℕ} {w : World σ} :
    Creates app depth w ↔ w.conn.MayCreate := by
  have hexec : app.exec (depth + 1) .createStream w =
      (createStream >>= fun r => pure (Reply.stream r) : Run σ Reply) w := rfl
  constructor
  · rintro ⟨r, w', h⟩
    rw [hexec] at h
    obtain ⟨res, w1, hcreate, h1⟩ := bind_ok.mp h
    rcases createStream_cases hcreate with ⟨rfl, -⟩ | ⟨hmay, -⟩
    · cases h1
    · exact hmay
  · intro hmay
    have hlimit := hmay.limit
    have hcreate : ∃ r w', createStream w = .ok (some r, w') := by
      unfold createStream
      rw [bind_run (getConn_run w), if_neg (by simp [hmay.ids, hmay.receivedGoaway,
        hmay.sentGoaway])]
      dsimp only
      rw [if_neg (by omega)]
      exact ⟨_, _, rfl⟩
    obtain ⟨r, w', hcreate⟩ := hcreate
    exact ⟨r, w', by rw [hexec, bind_run hcreate]; rfl⟩

theorem localStreams_le (c : Http2Connection) : c.localStreams ≤ c.streams.length :=
  List.countP_le_length

/-- **The peer's stream limit.** In every state reached in which no GOAWAY was sent or received and
there are stream ids left, `CreateStream` returns a stream exactly while there are fewer local
streams than the peer's limit, if and only if that limit is not 0, and is not within the number of
all streams and above that of the local ones. -/
theorem createStream_limit {app : App σ} {w : World σ} (h : app.Reachable w)
    (hreceived : w.conn.receivedGoaway = false) (hsent : w.conn.sentGoaway = false)
    (hids : w.conn.nextLocalStreamId < http2MaxStreamId) (depth : ℕ) :
    (Creates app depth w ↔ w.conn.localStreams < peerLimit w.trace) ↔
      peerLimit w.trace ≠ 0 ∧
        ¬ (w.conn.localStreams < peerLimit w.trace ∧
          peerLimit w.trace ≤ w.conn.streams.length) := by
  have hle := localStreams_le w.conn
  have hmay : Creates app depth w ↔
      peerLimit w.trace = 0 ∨ w.conn.streams.length < peerLimit w.trace := by
    rw [creates_iff, ← (limitStored_reachable h).last]
    exact ⟨fun hmay => hmay.limit, fun hlimit => ⟨hids, hreceived, hsent, hlimit⟩⟩
  rw [hmay]
  omega

/-- SETTINGS with MAX_CONCURRENT_STREAMS. -/
def limitSettings (limit : UInt8) : Bytes := [0, 0, 6, 4, 0, 0, 0, 0, 0, 0, 3, 0, 0, 0, limit]

/-- A client with one of the two streams that the server allows. -/
theorem createStream_limit_two : ∃ w : World Unit, peerLimit w.trace = 2 ∧
    w.conn.localStreams = 1 ∧ Creates App.quiet 0 w := by
  obtain ⟨⟨_, w⟩, hrun, hreceived, hsent, hids, hlimit, hlocal, htotal⟩ := except_ok_of_decide
    (x := App.quiet.inputs 1 [.received (limitSettings 2), .call .createStream]
      (App.quietWorld true))
    (P := fun r => r.2.conn.receivedGoaway = false ∧ r.2.conn.sentGoaway = false ∧
      r.2.conn.nextLocalStreamId < http2MaxStreamId ∧ peerLimit r.2.trace = 2 ∧
      r.2.conn.localStreams = 1 ∧ r.2.conn.streams.length = 1) (by decide +kernel)
  dsimp only at hreceived hsent hids hlimit hlocal htotal
  have hiff := createStream_limit (App.reachable_inputs (App.reachable_quietWorld true) hrun)
    hreceived hsent hids 0
  exact ⟨w, hlimit, hlocal, (hiff.mpr (by omega)).mpr (by omega)⟩

/-- A limit of 0 does not stop a client, and a limit of 1 stops a server that has opened no stream
itself. -/
theorem createStream_limit_ignored :
    (∃ w : World Unit, App.quiet.Reachable w ∧ w.conn.receivedGoaway = false ∧
      w.conn.sentGoaway = false ∧ w.conn.nextLocalStreamId = 1 ∧ peerLimit w.trace = 0 ∧
      ¬ (Creates App.quiet 0 w ↔ w.conn.localStreams < peerLimit w.trace)) ∧
    ∃ w : World Unit, App.quiet.Reachable w ∧ w.conn.receivedGoaway = false ∧
      w.conn.sentGoaway = false ∧ w.conn.nextLocalStreamId = 2 ∧ peerLimit w.trace = 1 ∧
      ¬ (Creates App.quiet 0 w ↔ w.conn.localStreams < peerLimit w.trace) := by
  constructor
  · obtain ⟨⟨_, w⟩, hrun, hreceived, hsent, hids, hlimit, hstored⟩ := except_ok_of_decide
      (x := App.quiet.inputs 1 [.received (limitSettings 0)] (App.quietWorld true))
      (P := fun r => r.2.conn.receivedGoaway = false ∧ r.2.conn.sentGoaway = false ∧
        r.2.conn.nextLocalStreamId = 1 ∧ peerLimit r.2.trace = 0 ∧
        r.2.conn.remoteSetting idMaxConcurrentStreams = 0) (by decide +kernel)
    dsimp only at hreceived hsent hids hlimit hstored
    have hmay : w.conn.MayCreate :=
      ⟨by rw [hids]; decide, hreceived, hsent, .inl hstored⟩
    refine ⟨w, App.reachable_inputs (App.reachable_quietWorld true) hrun, hreceived, hsent, hids,
      hlimit, fun hiff => ?_⟩
    have := hiff.mp (creates_iff.mpr hmay)
    omega
  · obtain ⟨⟨_, w⟩, hrun, hreceived, hsent, hids, hlimit, hlocal, htotal, hstored⟩ :=
      except_ok_of_decide
        (x := App.quiet.inputs 1 [.received (preface ++ limitSettings 1 ++
          [0, 0, 6, 1, 4, 0, 0, 0, 1, 0x82, 0, 1, 97, 1, 98])] (App.quietWorld false))
        (P := fun r => r.2.conn.receivedGoaway = false ∧ r.2.conn.sentGoaway = false ∧
          r.2.conn.nextLocalStreamId = 2 ∧ peerLimit r.2.trace = 1 ∧
          r.2.conn.localStreams = 0 ∧ r.2.conn.streams.length = 1 ∧
          r.2.conn.remoteSetting idMaxConcurrentStreams = 1) (by decide +kernel)
    dsimp only at hreceived hsent hids hlimit hlocal htotal hstored
    refine ⟨w, App.reachable_inputs (App.reachable_quietWorld false) hrun, hreceived, hsent, hids,
      hlimit, fun hiff => ?_⟩
    have := (creates_iff.mp (hiff.mpr (by omega))).limit
    omega

end LibHttp2
