import PeerBook.CommandLine.Run
import PeerBook.Proofs.Config.RoundTrip
import PeerBook.Proofs.Disk.Writing

namespace PeerBook.CommandLine

variable {disk after : Disk} {path : String} {c : Config}

theorem loadConfig_of_write {content : Octets} (h : disk.write path content = .ok after) :
    loadConfig after path = Config.load path (some content) := by
  rw [loadConfig, if_pos (Disk.isPresent_of_write h), Disk.read_of_write h]
  rfl

theorem validate_of_loadConfig (h : loadConfig disk path = .ok c) : c.validate = .ok () := by
  rw [loadConfig] at h
  split at h
  · cases hread : disk.read path with
    | error fault =>
        rw [hread] at h
        cases h
    | ok content =>
        rw [hread] at h
        have hload : Config.load path (some content) = .ok c := h
        exact Config.validate_of_load hload
  · exact Config.validate_of_load h

theorem saveConfig_ok (h : saveConfig c path disk = (.ok (), after)) :
    (disk.ensureAncestors path).2.write path (utf8 c.encode) = .ok after := by
  rw [saveConfig] at h
  cases hmade : (disk.ensureAncestors path).1 with
  | error fault => simp [hmade, Except.bind] at h
  | ok _ =>
      cases hwrite : (disk.ensureAncestors path).2.write path (utf8 c.encode) with
      | error fault => simp [hmade, hwrite, Except.bind] at h
      | ok written => simpa [hmade, hwrite, Except.bind] using h

/-- It is the path that keeps settings from being saved, never what they are. -/
theorem saveConfig_error {fault : Fault} (h : (saveConfig c path disk).1 = .error fault)
    (other : Config) : (saveConfig other path disk).1 = .error fault := by
  rw [saveConfig] at h ⊢
  cases hmade : (disk.ensureAncestors path).1 with
  | error fault => simpa [hmade, Except.bind] using h
  | ok _ =>
      cases hwrite : (disk.ensureAncestors path).2.write path (utf8 c.encode) with
      | error fault =>
          have hother := Disk.write_error hwrite (utf8 other.encode)
          simpa [hmade, hwrite, hother, Except.bind] using h
      | ok written => simp [hmade, hwrite, Except.bind] at h

theorem loadConfig_saveConfig :
    (∀ (disk : Disk) (path : String) (c : Config),
      loadConfig disk path = .ok c → c.validate = .ok ()) ∧
    ∀ (disk : Disk) (path : String) (c : Config), c.validate = .ok () →
      match saveConfig c path disk with
      | (.ok (), after) => loadConfig after path = .ok c
      | (.error fault, _) => ∀ other : Config, (saveConfig other path disk).1 = .error fault := by
  refine ⟨fun _ _ _ => validate_of_loadConfig, fun disk path c hvalid => ?_⟩
  cases hsaved : saveConfig c path disk with
  | mk result after =>
      cases result with
      | ok _ =>
          show loadConfig after path = .ok c
          rw [loadConfig_of_write (saveConfig_ok hsaved), Config.load_encode path hvalid]
      | error fault => exact saveConfig_error (by rw [hsaved])

def awkward : Config where
  dataDir := "/data\\Büro\u0000"
  capacity := 1
  identitySalt := "\"a\tb\u2028\n"
  staleAfterSecs := 18446744073709551615
  gossip := { fanout := 0 }

theorem loadConfig_saveConfig_awkward :
    awkward.validate = .ok () ∧
      ∃ after, saveConfig awkward "deep/config.json" {} = (.ok (), after) ∧
        loadConfig after "deep/config.json" = .ok awkward := by
  have hvalid : awkward.validate = .ok () := by decide +kernel
  have hsaved : (saveConfig awkward "deep/config.json" {}).1 = .ok () := by decide +kernel
  have hpair : saveConfig awkward "deep/config.json" {} =
      (.ok (), (saveConfig awkward "deep/config.json" {}).2) := Prod.ext hsaved rfl
  have hloaded := loadConfig_saveConfig.2 {} "deep/config.json" awkward hvalid
  rw [hpair] at hloaded
  exact ⟨loadConfig_saveConfig.1 _ _ _ hloaded, _, hpair, hloaded⟩

end PeerBook.CommandLine
