import DistDirectives.Proofs.Path.Segments

/-!
# Stripping and extending

Extending a directory by a path puts segments behind its own, and stripping the directory takes
them away again. Neither looks at more than whether paths are absolute and at their segments: a
directory can be stripped exactly when its segments lead the path, and what is left extends the
directory to the path again. The exceptions are those of the empty path, which is stripped from
every path and leaves an absolute path absolute.
-/

namespace DistDirectives.Path

variable {path directory rest : Path} {lead more : Text}

/-! ## Paths behind a directory -/

/-- A path goes on behind a directory. What stands behind it is relative, except that behind
the empty path every path stands as it is. -/
structure GoesOn (path directory rest : Path) : Prop where
  path_eq : path = directory.join rest.text
  relative : directory.isEmpty = false → rest.isAbsolute = false

/-- Stripping is the inverse of extending. -/
theorem strip?_text_eq_some_iff :
    path.strip? directory.text = some rest ↔ path.GoesOn directory rest := by
  rw [strip?_eq_some_iff, ofText_text]
  split
  · rename_i is_empty
    constructor
    · rintro rfl
      exact ⟨by simp [join, is_empty], by simp [is_empty]⟩
    · rintro ⟨path_eq, -⟩
      simp [path_eq, join, is_empty]
  · rename_i filled
    have absolute := directory.isAbsolute_join rest.text
    rw [if_neg filled] at absolute
    constructor
    · rintro ⟨same, relative, segments⟩
      refine ⟨ext_segments (same.trans absolute.symm) ?_, fun _ => relative⟩
      rw [segments, segments_join, ofText_text]
    · rintro ⟨rfl, relative⟩
      exact ⟨absolute, relative (by simpa using filled), by rw [segments_join, ofText_text]⟩

theorem strip?_clean (path : Path) (lead : Text) :
    path.strip? (ofText lead).text = path.strip? lead := by
  rw [strip?, strip?, ofText_text]

/-- What is left when a lead is stripped extends the lead to the path again. -/
theorem join_of_strip? (stripped : path.strip? lead = some rest) :
    (ofText lead).join rest.text = path := by
  rw [← strip?_clean] at stripped
  exact (strip?_text_eq_some_iff.1 stripped).path_eq.symm

/-! ## What can be stripped -/

/-- A lead can be stripped when it is empty or leads the path segment by segment. -/
theorem isSome_strip?_iff :
    (path.strip? lead).isSome = true ↔
      (ofText lead).isEmpty = true ∨
        path.isAbsolute = (ofText lead).isAbsolute ∧ (ofText lead).segments <+: path.segments := by
  constructor
  · intro found
    obtain ⟨rest, stripped⟩ := Option.isSome_iff_exists.1 found
    rw [strip?_eq_some_iff] at stripped
    split at stripped
    · exact .inl ‹_›
    · rcases stripped with ⟨absolute, -, segments⟩
      exact .inr ⟨absolute, rest.segments, segments.symm⟩
  · rintro (lead_empty | ⟨absolute, names, segments⟩)
    · exact Option.isSome_iff_exists.2 ⟨path, strip?_eq_some_iff.2 (by rw [if_pos lead_empty])⟩
    · obtain ⟨rest, stripped, -⟩ := exists_strip?_of_segments absolute segments.symm
      exact Option.isSome_iff_exists.2 ⟨rest, stripped⟩

/-- A path that was extended can be stripped, which leaves the segments of what was added. -/
theorem exists_strip?_join (path : Path) (more : Text) :
    ∃ rest, (path.join more).strip? path.text = some rest ∧
      rest.segments = (ofText more).segments := by
  by_cases path_empty : path.isEmpty = true
  · refine ⟨ofText more, strip?_eq_some_iff.2 ?_, rfl⟩
    rw [ofText_text, if_pos path_empty, join, if_pos path_empty]
  · have absolute : (path.join more).isAbsolute = (ofText path.text).isAbsolute := by
      rw [ofText_text, isAbsolute_join, if_neg path_empty]
    have segments :
        (path.join more).segments = (ofText path.text).segments ++ (ofText more).segments := by
      rw [ofText_text, segments_join]
    obtain ⟨rest, stripped, -, left⟩ := exists_strip?_of_segments absolute segments
    exact ⟨rest, stripped, left⟩

/-! ## Stripping inverts extending -/

/-- Stripping and extending are inverse to each other, segment by segment, however the texts are
spelled. -/
theorem strip?_inverts_join (path : Path) (lead more : Text) :
    ((path.strip? lead).isSome = true ↔
      (ofText lead).isEmpty = true ∨
        path.isAbsolute = (ofText lead).isAbsolute ∧ (ofText lead).segments <+: path.segments) ∧
      (∀ rest, path.strip? lead = some rest → (ofText lead).join rest.text = path) ∧
        (path.join more).segments = path.segments ++ (ofText more).segments ∧
          ∃ rest, (path.join more).strip? path.text = some rest ∧
            rest.segments = (ofText more).segments :=
  ⟨isSome_strip?_iff, fun _ => join_of_strip?, segments_join path more,
    exists_strip?_join path more⟩

/-- A directory spelled with backslashes and dots is stripped, and extended again. Behind the empty
path an absolute path stays as it is, and extends the empty path to itself. -/
theorem strip?_inverts_join_spelled :
    (ofText ['\\', '.', '/', 'a', '/']).join ['b'] = ofText "/a/b".toList ∧
      (ofText ['.', '/']).join "/a".toList = ofText "/a".toList :=
  ⟨(strip?_inverts_join (ofText "/a/b".toList) ['\\', '.', '/', 'a', '/'] []).2.1 (ofText ['b'])
      (by decide +kernel),
    (strip?_inverts_join (ofText "/a".toList) ['.', '/'] []).2.1 (ofText "/a".toList)
      (by decide +kernel)⟩

end DistDirectives.Path
