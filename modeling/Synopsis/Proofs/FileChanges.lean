import Synopsis.FileSystem

/-!
# Changes of a file system

A write that succeeds fills one place, which held no directory, and leaves all others as they were; one that
fails changes nothing. Where there is nothing at a path, a write to it adds a file and replaces none.
-/

namespace Synopsis

namespace FileSystem

/-- Nothing is changed but at one place. -/
structure SameBut (place : List Text) (before after : FileSystem) : Prop where
  cwd : after.cwd = before.cwd
  find? : ∀ other, other ≠ place → after.find? other = before.find? other

/-- Whatever stands somewhere is still there as it was. -/
def Keeps (before after : FileSystem) : Prop :=
  ∀ place e, before.find? place = some e → after.find? place = some e

theorem sameBut_put (fs : FileSystem) (place : List Text) (e : Entry) : SameBut place fs (fs.put place e) where
  cwd := rfl
  find? _ h := fs.find?_put_of_ne h e

theorem Keeps.refl (fs : FileSystem) : Keeps fs fs := fun _ _ h => h

theorem Keeps.trans {a b c : FileSystem} (hab : Keeps a b) (hbc : Keeps b c) : Keeps a c :=
  fun place e h => hbc place e (hab place e h)

theorem SameBut.keeps {place : List Text} {before after : FileSystem} (h : SameBut place before after)
    (hnone : before.find? place = none) : Keeps before after := by
  intro other e hother
  have hne : other ≠ place := by
    rintro rfl
    rw [hnone] at hother
    cases hother
  rw [h.find? other hne, hother]

@[simp] theorem find?_root (fs : FileSystem) : fs.find? [] = some .directory := rfl

/-- A write goes to the place of its path, where no directory stands. -/
theorem write_cases {fs after : FileSystem} {p : Path} {c : Content} (h : fs.write p c = .ok after) :
    ∃ place, p.hasNull = false ∧ fs.place p = .ok place ∧ fs.find? place ≠ some .directory ∧
      after = fs.put place (.file c) := by
  unfold write at h
  split at h
  · cases h
  · next hnull =>
      split at h
      · cases h
      · next place hplace =>
          split at h
          · cases h
          · next hdirectory =>
              cases h
              exact ⟨place, by simpa using hnull, hplace, hdirectory, rfl⟩

theorem find?_put_file {fs : FileSystem} {place : List Text} (h : fs.find? place ≠ some .directory)
    (c : Content) :
    (fs.put place (.file c)).find? place = some (.file c) := by
  apply find?_put_self
  rintro rfl
  exact h fs.find?_root

theorem find?_of_not_exists {fs : FileSystem} {p : Path} {place : List Text}
    (hexists : fs.exists? p = .ok false)
    (hnull : p.hasNull = false) (hplace : fs.place p = .ok place) : fs.find? place = none := by
  simpa [exists?, hnull, hplace] using hexists

theorem write_of_not_exists {fs after : FileSystem} {p : Path} {c : Content}
    (hexists : fs.exists? p = .ok false) (h : fs.write p c = .ok after) :
    ∃ place, fs.place p = .ok place ∧ fs.find? place = none ∧ after.find? place = some (.file c) ∧
      SameBut place fs after := by
  obtain ⟨place, hnull, hplace, hdirectory, rfl⟩ := write_cases h
  exact ⟨place, hplace, find?_of_not_exists hexists hnull hplace, find?_put_file hdirectory c,
    sameBut_put fs place _⟩

/-- A file put where no directory stood stands in the way of no path that could be followed. -/
theorem walk_put {fs : FileSystem} {target : List Text} (hdirectory : fs.find? target ≠ some .directory)
    (e : Entry) {here place : List Text} {parts : List Text} (h : fs.walk here parts = .ok place) :
    (fs.put target e).walk here parts = .ok place := by
  induction parts generalizing here with
  | nil => exact h
  | cons part parts ih =>
      rw [walk] at h ⊢
      cases hhere : fs.find? here with
      | none => simp [hhere] at h
      | some entry =>
          cases entry with
          | file content => simp [hhere] at h
          | directory =>
              have hne : here ≠ target := by
                rintro rfl
                exact hdirectory hhere
              rw [fs.find?_put_of_ne hne, hhere]
              simp only [hhere] at h ⊢
              split at h
              · cases h
              · next hsize =>
                  rw [if_neg hsize]
                  exact ih h

theorem unifyBreaks_of_not_mem {t : Text} (h : '\r' ∉ t) : unifyBreaks t = t := by
  induction t with
  | nil => rfl
  | cons c t ih =>
      rw [List.mem_cons, not_or] at h
      obtain ⟨hc, ht⟩ := h
      rw [unifyBreaks, ih ht]
      · exact fun rest hrest => absurd hrest.symm hc
      · exact fun hreturn => absurd hreturn.symm hc

theorem read_of_write {fs after : FileSystem} {p : Path} {t : Text} (h : fs.write p (.text t) = .ok after) :
    after.read p = .ok (unifyBreaks t) := by
  obtain ⟨place, hnull, hplace, hdirectory, rfl⟩ := write_cases h
  have hwalk : (fs.put place (.file (.text t))).place p = .ok place := by
    unfold FileSystem.place at hplace ⊢
    split at hplace
    · cases hplace
    · next hsize =>
        rw [if_neg hsize]
        exact walk_put hdirectory _ hplace
  simp [read, hnull, hwalk, find?_put_file hdirectory]

def Writable (fs : FileSystem) (p : Path) : Prop :=
  ∃ c after, fs.write p c = .ok after

/-- Whether a file can be written does not depend on what it is to hold. -/
theorem Writable.write {fs : FileSystem} {p : Path} (h : fs.Writable p) (c : Content) :
    ∃ after, fs.write p c = .ok after := by
  obtain ⟨c', after, hwrite⟩ := h
  obtain ⟨place, hnull, hplace, hdirectory, -⟩ := write_cases hwrite
  refine ⟨fs.put place (.file c), ?_⟩
  unfold FileSystem.write
  rw [hnull, if_neg (by decide), hplace]
  dsimp only
  split
  next hfind => exact absurd hfind hdirectory
  next => rfl

end FileSystem

end Synopsis
