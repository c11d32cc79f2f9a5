import PkgRecipe.Proofs.Settings.MethodName

namespace PkgRecipe.Settings

private theorem positive_of_positiveInteger {data : Data} {n : Int}
    (valid : positiveInteger data = .valid n) : 0 < n := by
  obtain ⟨m, -, valid⟩ := Checked.andThen_eq_valid_iff.1 valid
  split at valid
  · cases valid
    assumption
  · contradiction

theorem entry_eq_valid {α : Type} {name : String} {default value : α} {read : Data → Checked α}
    {entries : Data.Entries} (valid : entry name default read entries = .valid value) :
    value = default ∨ ∃ data, read data = .valid value := by
  unfold entry at valid
  split at valid
  · cases valid
    exact .inl rfl
  · exact .inr ⟨_, Checked.inside_eq_valid_iff.1 valid⟩

theorem chunkSize_pos_of_read {entries : Data.Entries} {part : Checksum}
    (valid : Checksum.read entries = .valid part) : 0 < part.chunkSize := by
  obtain ⟨make, size, made, sized, rfl⟩ := Checked.seq_eq_valid_iff.1 valid
  obtain ⟨fetch, -, rfl⟩ := Checked.map_eq_valid_iff.1 made
  rcases entry_eq_valid sized with rfl | ⟨data, positive⟩
  · exact (by decide : (0 : Int) < 65536)
  · exact positive_of_positiveInteger positive

theorem Accepted.chunkSize_pos {settings : Settings} (accepted : settings.Accepted) :
    0 < settings.checksum.chunkSize := by
  obtain ⟨entries, read⟩ := accepted.exists_entries
  rcases entry_eq_valid (readFrom_of_ofEntries read).checksum with default | ⟨data, valid⟩
  · rw [default]
    decide
  · cases data with
    | mapping parts => exact chunkSize_pos_of_read valid
    | scalar s => contradiction
    | sequence items => contradiction

end PkgRecipe.Settings
