import Synopsis.Proofs.FileChanges
import Synopsis.Proofs.YamlRoundTrip
import Synopsis.Workspace

/-!
# Configurations saved and loaded

A configuration is saved as a file of four entries, which every level, all choices of checks, and any texts for
the categories allow. Loading it from where it was saved gives the same configuration.
-/

namespace Synopsis

namespace Config

def fields (c : Config) : List (Text × Value) :=
  [(namesNames.written.toList, .bool c.policy.checkNames),
    (reservedNames.written.toList, .bool c.policy.checkReserved),
    (excludeNames.written.toList, .list (c.exclude.map .text)),
    (levelNames.written.toList, .int c.level.number)]

theorem dump_eq_fileOf (c : Config) : c.dump = Yaml.fileOf c.fields := rfl

open Yaml in
theorem isFile_fields (c : Config) : IsFile c.fields where
  key := by
    simp only [fields, List.forall_mem_cons]
    refine ⟨?_, ?_, ?_, ?_, by simp⟩
    all_goals exact ⟨List.all_eq_true.mp (by decide), ⟨_, _, rfl, by decide⟩, by decide, by decide⟩
  value := by
    have hexclude : ∀ v ∈ c.exclude.map Value.text, IsLeaf v := by
      intro v hv
      obtain ⟨t, -, rfl⟩ := List.mem_map.mp hv
      exact .text t
    have hlevel : IsLeaf (.int c.level.number) := .digit (by cases c.level <;> decide)
    simp only [fields, List.forall_mem_cons]
    exact ⟨.leaf (.bool _), .leaf (.bool _), .list hexclude, .leaf hlevel, by simp⟩
  distinct := by
    simp only [fields, List.map_cons, List.map_nil]
    decide
  nonempty := List.cons_ne_nil _ _

theorem ofYaml_toYaml (c : Config) : ofYaml c.toYaml = .ok c := by
  have hread : Yaml.read c.toYaml = .ok c.dump := by
    rw [toYaml, dump_eq_fileOf]
    exact Yaml.read_write (isFile_fields c)
  have hentries := read_dump c
  obtain ⟨entries, hdump⟩ : ∃ entries, c.dump = .object entries := ⟨_, rfl⟩
  rw [hdump] at hread hentries
  have hentries : readEntries entries = .ok c := hentries
  rw [ofYaml, hread]
  dsimp only
  rw [hentries]

theorem unifyBreaks_toYaml (c : Config) : FileSystem.unifyBreaks c.toYaml = c.toYaml := by
  apply FileSystem.unifyBreaks_of_not_mem
  intro hreturn
  have hwritten := Yaml.isWritten_write (isFile_fields c)
  rw [← dump_eq_fileOf] at hwritten
  have hascii := List.all_eq_true.mp hwritten _ hreturn
  cases hascii

end Config

namespace Workspace

/-- A configuration that is saved where a file can be written is loaded from there as it was. -/
theorem loadConfig_saveConfig {fs : FileSystem} {path : Path} (h : fs.Writable path) (c : Config) :
    ∃ after, saveConfig fs path c = .ok after ∧ loadConfig after path = .ok c := by
  obtain ⟨after, hwrite⟩ := h.write (.text c.toYaml)
  refine ⟨after, ?_, ?_⟩
  · rw [saveConfig, hwrite]
    rfl
  · rw [loadConfig, FileSystem.read_of_write hwrite, Config.unifyBreaks_toYaml]
    dsimp only
    rw [configOfText, Config.ofYaml_toYaml]

/-- A configuration with categories that look like other values of a file, or that no plain line can hold. -/
def oddConfig : Config :=
  ⟨.typing, ⟨true, false⟩,
    ["yes", "12", "null", "", "a: b", "it's \"so\"", "two\n lines", "caf\u00e9 "].map String.toList⟩

theorem loadConfig_saveConfig_of_odd_categories :
    FileSystem.Writable (.fresh [['w']]) (Path.ofText "/w/.docsyntax.yaml".toList) ∧
      ∃ after, saveConfig (.fresh [['w']]) (Path.ofText "/w/.docsyntax.yaml".toList) oddConfig = .ok after ∧
        loadConfig after (Path.ofText "/w/.docsyntax.yaml".toList) = .ok oddConfig := by
  have hwritable : FileSystem.Writable (.fresh [['w']]) (Path.ofText "/w/.docsyntax.yaml".toList) :=
    ⟨.text [], _, rfl⟩
  exact ⟨hwritable, loadConfig_saveConfig hwritable oddConfig⟩

end Workspace

end Synopsis
