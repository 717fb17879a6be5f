import SparseCamera.Ini.Reader

/-!
# Comments

A comment ends with its line, but `ini_load` sees pieces of a line, and a piece that begins inside a
comment does not look like one. What such pieces say is the spill of the comment. Two comments at
one place make a difference exactly when their spills differ and not both files are rejected.

## The construction

Both files are cut into the same pieces up to the one in which the comments begin. In that piece the
comment is ignored, whatever it is. What may differ are the pieces that begin inside a comment, and
after the end of the line the files are the same again. So the directives of the two files differ by
two spills in one place (`directives_comment`), and `iniLoad_ok_iff` turns that into a statement
about what is loaded.
-/

namespace SparseCamera

open CString LineReader

/-- A comment, or nothing. -/
structure IsComment (c : Bytes) : Prop where
  newline : newline ∉ c
  sign : ∀ b ∈ c.head?, isComment b = true

/-- A place in a line: `before` are the lines before it, `head` is the line up to this place, and
`after` is what follows the line. -/
structure IsPlace (before head after : Bytes) : Prop where
  before : before = [] ∨ before.getLast? = some newline
  head : newline ∉ head
  after : after = [] ∨ ∃ rest, after = newline :: rest

/-- What the comment `c` behind `head` says beyond the piece in which it begins. -/
def spill (head c : Bytes) : List Directive :=
  directives (c.drop ((iniLineMax - 1) - head.length % (iniLineMax - 1)))

private theorem spill_eq_nil {head c : Bytes}
    (h : head.length % (iniLineMax - 1) + c.length ≤ iniLineMax - 1) : spill head c = [] := by
  rw [spill, List.drop_of_length_le (by omega)]
  rfl

private theorem directives_comment {before head after c : Bytes} (h : IsPlace before head after)
    (hc : IsComment c) :
    directives (before ++ (head ++ c ++ after))
      = directives before ++ (directives head ++ spill head c ++ directives after) := by
  have hroom : 0 < iniLineMax - 1 := by decide
  have hend (v : Bytes) (_ : newline ∉ v) := directive_newline v
  have hline : newline ∉ head ++ c := by
    rw [List.mem_append, not_or]
    exact ⟨h.head, hc.newline⟩
  -- however much of the comment is read with the line, its sign comes first
  have hignore (v : Bytes) (k : ℕ) (_ : newline ∉ v) : directive (v ++ c.take k) = directive v := by
    refine directive_comment v ?_
    intro b hb
    cases k with
    | zero => cases hb
    | succ k =>
      rw [List.head?_take, if_neg (Nat.succ_ne_zero k)] at hb
      exact hc.sign b hb
  rw [directives, records_append hroom h.before,
    records_line hend directive_nil hroom hline h.after,
    records_ignored hroom directive_nil h.head hc.newline hignore]
  rfl

/-- A file from which a store can be built. -/
def Describes (contents : Bytes) : Prop :=
  ∃ ini : Ini, ini.WellFormed ∧ directives contents = ini.directives

private theorem toOption_iniLoad_eq_some {fopen : Bytes → Except Bytes Bytes}
    {path contents : Bytes}
    (hopen : fopen path = .ok contents) {granted : Bool} {ini : Ini} :
    (iniLoad fopen granted (some path)).toOption = some ini ↔
      granted = true ∧ ini.WellFormed ∧ directives contents = ini.directives := by
  have hok : (iniLoad fopen granted (some path)).toOption = some ini ↔
      iniLoad fopen granted (some path) = .ok ini := by
    cases iniLoad fopen granted (some path) with
    | error e => simp [Except.toOption]
    | ok ini' => simp [Except.toOption]
  rw [hok, iniLoad_ok_iff]
  constructor
  · rintro ⟨hgranted, _, _, ⟨⟩, hopen', hwell, hds⟩
    obtain rfl := Except.ok.inj (hopen.symm.trans hopen')
    exact ⟨hgranted, hwell, hds⟩
  · rintro ⟨hgranted, hwell, hds⟩
    exact ⟨hgranted, path, contents, rfl, hopen, hwell, hds⟩

private theorem toOption_iniLoad_eq_iff {fopen fopen' : Bytes → Except Bytes Bytes}
    {path path' : Bytes}
    {contents contents' : Bytes} (hopen : fopen path = .ok contents)
    (hopen' : fopen' path' = .ok contents') (granted : Bool) :
    (iniLoad fopen granted (some path)).toOption = (iniLoad fopen' granted (some path')).toOption ↔
      granted = false ∨ directives contents = directives contents' ∨
        ¬Describes contents ∧ ¬Describes contents' := by
  constructor
  · intro h
    refine or_iff_not_imp_left.mpr fun hgranted ↦ or_iff_not_imp_left.mpr fun hne ↦ ?_
    rw [Bool.not_eq_false] at hgranted
    -- a store that one of the files describes would have been loaded from both
    constructor
    · rintro ⟨ini, hwell, hds⟩
      have hload := (toOption_iniLoad_eq_some hopen).mpr ⟨hgranted, hwell, hds⟩
      rw [h, toOption_iniLoad_eq_some hopen'] at hload
      exact hne (hds.trans hload.2.2.symm)
    · rintro ⟨ini, hwell, hds⟩
      have hload := (toOption_iniLoad_eq_some hopen').mpr ⟨hgranted, hwell, hds⟩
      rw [← h, toOption_iniLoad_eq_some hopen] at hload
      exact hne (hload.2.2.trans hds.symm)
  · intro h
    refine Option.ext ?_
    intro ini
    rw [toOption_iniLoad_eq_some hopen, toOption_iniLoad_eq_some hopen']
    rcases h with rfl | heq | ⟨hnot, hnot'⟩
    · simp
    · rw [heq]
    · refine iff_of_false ?_ ?_
      · rintro ⟨-, hini⟩
        exact hnot ⟨ini, hini⟩
      · rintro ⟨-, hini⟩
        exact hnot' ⟨ini, hini⟩

/-- **When comments do not matter.** Putting one comment in the place of another leaves the outcome
of `ini_load` as it was exactly when both spill the same or neither file describes a store. -/
theorem comment_irrelevant {before head after c c' : Bytes} (h : IsPlace before head after)
    (hc : IsComment c) (hc' : IsComment c') {fopen fopen' : Bytes → Except Bytes Bytes}
    {path path' : Bytes} (hopen : fopen path = .ok (before ++ (head ++ c ++ after)))
    (hopen' : fopen' path' = .ok (before ++ (head ++ c' ++ after))) (granted : Bool) :
    (iniLoad fopen granted (some path)).toOption = (iniLoad fopen' granted (some path')).toOption ↔
      granted = false ∨ spill head c = spill head c' ∨
        ¬Describes (before ++ (head ++ c ++ after)) ∧
          ¬Describes (before ++ (head ++ c' ++ after)) := by
  rw [toOption_iniLoad_eq_iff hopen hopen', directives_comment h hc, directives_comment h hc',
    List.append_cancel_left_eq, List.append_cancel_right_eq, List.append_cancel_left_eq]

theorem comment_irrelevant_short :
    (iniLoad (fun _ ↦ .ok (ascii "[a]\nk = v # w\n")) true (some [])).toOption
      = (iniLoad (fun _ ↦ .ok (ascii "[a]\nk = v \n")) true (some [])).toOption := by
  have hplace : IsPlace (ascii "[a]\n") (ascii "k = v ") (ascii "\n") :=
    ⟨Or.inr rfl, by decide, Or.inr ⟨[], rfl⟩⟩
  have hc : IsComment (ascii "# w") := ⟨by decide, by rintro b ⟨⟩; rfl⟩
  have hc' : IsComment [] := ⟨List.not_mem_nil, by rintro b ⟨⟩⟩
  refine (comment_irrelevant hplace hc hc' rfl rfl true).mpr (Or.inr (Or.inl ?_))
  rw [spill_eq_nil (by decide), spill_eq_nil (by decide)]

/-- A comment of 512 bytes: its last one is read as a line. -/
def longComment : Bytes := ascii "#" ++ List.replicate 511 (chr 'x')

/-- **A comment that does not fit makes a difference.** The file with the short comment is loaded,
the file with the long one is rejected. -/
theorem comment_spills :
    IsPlace (ascii "[a]\n") [] [] ∧ IsComment longComment ∧ IsComment (ascii "#") ∧
      (iniLoad (fun _ ↦ .ok (ascii "[a]\n" ++ longComment)) true (some [])).toOption = none ∧
      (iniLoad (fun _ ↦ .ok (ascii "[a]\n" ++ ascii "#")) true (some [])).toOption
        = some { sections := [{ name := ascii "a", pairs := [] }] } := by
  have hlong : newline ∉ longComment := by
    rw [longComment, List.mem_append, List.mem_replicate]
    decide
  refine ⟨⟨Or.inr rfl, List.not_mem_nil, Or.inl rfl⟩, ⟨hlong, ?_⟩, ⟨by decide, ?_⟩,
    by decide +kernel, by decide +kernel⟩
  · rintro b ⟨⟩
    rfl
  · rintro b ⟨⟩
    rfl

end SparseCamera
