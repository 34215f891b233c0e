import LibHttp2.Hpack.TableSize
import LibHttp2.Invariants

/-!
# The decoder's table and the advertised size

The local setting HEADER_TABLE_SIZE tells the peer how large a table it may use. The ACK of a
SETTINGS frame writes the setting and leaves the decoder's table alone:
`update_max_table_size_limit` has no caller.

* `decoderTable_bounded`: the table keeps the limit of 4096 it was made with, in every run.
* `headerTableSize_honoured_iff`: so it honours the setting exactly if that is 4096.
-/

namespace LibHttp2

open Program Hpack

variable {σ : Type}

/-- The limit that the table is made with. -/
def initialTableSize : ℕ := (settingParameters idHeaderTableSize).defaultValue

/-- The decoder's table keeps within its first limit. -/
def TableBounded (w : World σ) : Prop := w.conn.dynamicTable.Bounded initialTableSize

/-- What keeps that. -/
def KeepsTable (w w' : World σ) : Prop := TableBounded w → TableBounded w'

instance : Guarantee (KeepsTable : World σ → World σ → Prop) where
  refl _ := id
  trans h h' hw := h' (h hw)

theorem KeepsTable.of_eq {w w' : World σ} (h : w'.conn.dynamicTable = w.conn.dynamicTable) :
    KeepsTable w w' := by
  intro hw
  unfold TableBounded at hw ⊢
  rwa [h]

theorem keepsTable_allowsCalls (app : App σ) :
    AllowsCalls app (KeepsTable : World σ → World σ → Prop) :=
  .of_steps app (fun h => .of_eq (Acts.of_step h).dynamicTable) (fun _ _ => .of_eq rfl)
    (fun _ _ => .of_eq rfl) (fun _ _ _ _ _ => .of_eq rfl) fun _ _ => .of_eq rfl

theorem keepsTable_receiving (app : App σ) {cb : Callbacks σ} (hcb : cb.Keeps KeepsTable) :
    Receiving cb (KeepsTable : World σ → World σ → Prop) := by
  refine .of_sending (.of_step (keepsTable_allowsCalls app).step hcb) fun h => .of_eq ?_
  cases h with
  | conn hc => exact Http2Connection.observe_frameCore (·.dynamicTable) (fun _ => rfl) hc
  | _ => rfl

/-- A fragment of a frame is short enough for the table's 32-bit sums. -/
theorem KeepsTable.decode {hdr : Http2FrameHdr} {payload : Bytes} (hwhole : hdr.Whole payload)
    {fragment : Span} (h : BlockFragment hdr payload fragment) :
    AllowsDecode (KeepsTable : World σ → World σ → Prop) fragment := by
  intro w code s hdec hw
  have hsize : fragment.size < 2 ^ 24 := Nat.lt_of_le_of_lt h.size_le hwhole.length
  exact decodeHeaders_bounded (s := ⟨w.conn.dynamicTable, []⟩) (by decide) hsize hw hdec

theorem tableBounded_invariant (app : App σ) (K : Conditions σ) :
    App.Invariant app K (TableBounded : World σ → Prop) := by
  have hcalls := keepsTable_allowsCalls app
  have hR := fun depth => keepsTable_receiving app (hcalls.callbacksWhen K.nested depth)
  refine ⟨?_, ?_, ?_, ?_, ?_, ?_⟩
  · exact fun _ _ _ _ _ => .init _
  · exact hcalls.execWhen K.call
  · exact moves_modify fun w => KeepsTable.of_eq (w := w) rfl
  · exact fun depth => (hR depth).sendInitialSettings
  · exact fun depth => (hR depth).failConnection
  · intro depth hdr payload v v' n hwhole _ hv hrun
    refine (hR depth).handleFrame ?_ hrun hv
    exact {
      noted := fun _ => .of_eq rfl
      block := fun _ _ => .of_eq rfl
      append := fun _ _ _ _ _ _ => .of_eq rfl
      table := fun _ => KeepsTable.decode hwhole
      opening := fun _ _ _ _ => .of_eq rfl
      settings := fun _ frame _ => (hR depth).receivedSettings (fun _ => .of_eq rfl) frame
      credit := fun _ _ _ _ => .of_eq rfl
      update := fun _ _ _ _ => .of_eq rfl }

/-- The decoder's table has its first limit in every run, and keeps within it. -/
theorem decoderTable_bounded {app : App σ} {w : World σ} (h : app.Reachable w) :
    w.conn.dynamicTable.Bounded initialTableSize :=
  h.reachableWhen.induct (tableBounded_invariant app {})

/-- **The decoder honours no other size than 4096.** In every run, the decoder's table honours the
HEADER_TABLE_SIZE in force exactly if that is the size the table was made with. -/
theorem headerTableSize_honoured_iff {app : App σ} {w : World σ} (h : app.Reachable w) :
    HonoursTableSize w.conn.dynamicTable (w.conn.localSetting idHeaderTableSize) ↔
      w.conn.localSetting idHeaderTableSize = 4096 :=
  honoursTableSize_iff (decoderTable_bounded h) (by decide)

/-- A SETTINGS frame with ACK. -/
def settingsAck : Bytes := [0, 0, 0, 4, 1, 0, 0, 0, 0]

/-- SETTINGS with this HEADER_TABLE_SIZE, and the ACK of them. -/
def acknowledgedSize (size : UInt32) : List App.Input :=
  [.call (.sendSettings [(1, size)]), .received settingsAck]

/-- A HEADER_TABLE_SIZE of 8192 that was acknowledged is not honoured, and one of 4096 that is
acknowledged after it is. -/
theorem headerTableSize_honoured_iff_acknowledged : ∃ w w' : World Unit,
    App.quiet.inputs 1 (.call (.sendPing 0) :: .received settingsAck :: acknowledgedSize 8192)
      (App.quietWorld true) = .ok ((), w) ∧
    App.quiet.inputs 1 (acknowledgedSize 4096) w = .ok ((), w') ∧
    w.conn.localSetting idHeaderTableSize = 8192 ∧ ¬ HonoursTableSize w.conn.dynamicTable 8192 ∧
    w'.conn.localSetting idHeaderTableSize = 4096 ∧ HonoursTableSize w'.conn.dynamicTable 4096 := by
  obtain ⟨⟨_, w⟩, hrun, hlarge⟩ := except_ok_of_decide
    (x := App.quiet.inputs 1
      (.call (.sendPing 0) :: .received settingsAck :: acknowledgedSize 8192) (App.quietWorld true))
    (P := fun r => r.2.conn.localSetting idHeaderTableSize = 8192) (by decide +kernel)
  obtain ⟨⟨_, w'⟩, hrun', hdefault⟩ := except_ok_of_decide
    (x := (do
      App.quiet.inputs 1 (.call (.sendPing 0) :: .received settingsAck :: acknowledgedSize 8192)
      App.quiet.inputs 1 (acknowledgedSize 4096) : Run Unit Unit) (App.quietWorld true))
    (P := fun r => r.2.conn.localSetting idHeaderTableSize = 4096) (by decide +kernel)
  rw [bind_run hrun] at hrun'
  have hw := App.reachable_inputs (App.reachable_quietWorld true) hrun
  have hiff := headerTableSize_honoured_iff hw
  have hiff' := headerTableSize_honoured_iff (App.reachable_inputs hw hrun')
  rw [hlarge] at hiff
  rw [hdefault] at hiff'
  exact ⟨w, w', hrun, hrun', hlarge, fun h => absurd (hiff.mp h) (by decide), hdefault,
    hiff'.mpr rfl⟩

/-- A size of 8192, requested and acknowledged, is in force, and the decoder refuses an update to
it. -/
theorem headerTableSize_not_honoured : ¬ ∀ w : World Unit, App.quiet.Reachable w →
    HonoursTableSize w.conn.dynamicTable (w.conn.localSetting idHeaderTableSize) := by
  intro h
  obtain ⟨⟨_, w⟩, hrun, hsetting⟩ := except_ok_of_decide
    (x := App.quiet.inputs 1
      (.call (.sendPing 0) :: .received settingsAck :: acknowledgedSize 8192) (App.quietWorld true))
    (P := fun r => r.2.conn.localSetting idHeaderTableSize = 8192) (by decide +kernel)
  have hw := App.reachable_inputs (App.reachable_quietWorld true) hrun
  have hdefault := (honoursTableSize_iff (decoderTable_bounded hw) (by decide)).mp (h w hw)
  rw [hsetting] at hdefault
  cases hdefault

end LibHttp2
