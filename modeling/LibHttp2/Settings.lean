import LibHttp2.Frame

/-!
# Settings parameters

`global_settings_parameters` of `settings.cc`: default and range of each setting, and what is done
with a value outside the range. The names are used nowhere and are left out.
-/

namespace LibHttp2

inductive InvalidValueBehavior
  | clamp
  | disconnect
  deriving DecidableEq, Repr

structure SettingParameters where
  defaultValue : ℕ
  minValue : ℕ
  maxValue : ℕ
  invalidValueBehavior : InvalidValueBehavior
  errorValue : Http2ErrorCode
  deriving DecidableEq, Repr

def globalSettingsParameters : List SettingParameters := [
  ⟨0, 0, 0, .clamp, .noError⟩,
  ⟨4096, 0, 4294967295, .clamp, .protocolError⟩,
  ⟨1, 0, 1, .disconnect, .protocolError⟩,
  ⟨4294967295, 0, 4294967295, .disconnect, .protocolError⟩,
  ⟨65535, 0, 2147483647, .disconnect, .flowControlError⟩,
  ⟨16384, 16384, 16777215, .disconnect, .protocolError⟩,
  ⟨16777216, 0, 16777216, .clamp, .protocolError⟩]

/-- `global_settings_parameters[id]`. -/
def settingParameters (id : ℕ) : SettingParameters :=
  globalSettingsParameters.getD id ⟨0, 0, 0, .clamp, .noError⟩

/-- The value stored for a received one, or the error of a connection that is given up. -/
def acceptSetting (id value : ℕ) : Except Http2ErrorCode ℕ :=
  let params := settingParameters id
  if value < params.minValue ∨ value > params.maxValue then
    if params.invalidValueBehavior = .disconnect then .error params.errorValue
    else
      let value := if value < params.minValue then params.minValue else value
      let value := if value > params.maxValue then params.maxValue else value
      .ok value
  else .ok value

/-- Every default lies in its range. -/
theorem defaultValue_mem : ∀ params ∈ globalSettingsParameters,
    params.minValue ≤ params.defaultValue ∧ params.defaultValue ≤ params.maxValue := by
  decide

theorem range_nonempty : ∀ params ∈ globalSettingsParameters,
    params.minValue ≤ params.maxValue := by
  decide

/-- What is stored lies in the range of its setting. -/
theorem acceptSetting_range {id value v : ℕ} (h : acceptSetting id value = .ok v)
    (hid : id < http2NumberOfSettings) :
    (settingParameters id).minValue ≤ v ∧ v ≤ (settingParameters id).maxValue := by
  have hmem : settingParameters id ∈ globalSettingsParameters := by
    unfold settingParameters
    have hlt : id < globalSettingsParameters.length := hid
    rw [List.getD_eq_getElem?_getD, List.getElem?_eq_getElem hlt, Option.getD_some]
    exact List.getElem_mem _
  have hrange := range_nonempty _ hmem
  unfold acceptSetting at h
  simp only at h
  split_ifs at h <;> cases h <;> omega

/-- A setting that is only ever clamped is never a reason to give up the connection. -/
theorem acceptSetting_error {id value : ℕ} {e : Http2ErrorCode}
    (h : acceptSetting id value = .error e) :
    (settingParameters id).invalidValueBehavior = .disconnect ∧
      e = (settingParameters id).errorValue := by
  unfold acceptSetting at h
  simp only at h
  split_ifs at h with h1 h2
  cases h
  exact ⟨h2, rfl⟩

end LibHttp2
