import SparseCamera.Ini.Reader

/-!
# Stores and files

A well-formed store can be written down, one line for each section and each pair, and is read back
unchanged. So the stores that `ini_load` can produce are the well-formed ones, and no others.

## The construction

A store is written with one line for each section and one for each pair, a blank on each side of the
equality sign. Every line of it fits the buffer: the longest has two texts of at most 127 bytes. So
reading it takes one piece for each line, each piece says what the line was written for, and what is
said determines the store.
-/

namespace SparseCamera

open CString LineReader

/-! ## Writing a store -/

def IniPair.render (pair : IniPair) : Bytes := pair.key ++ ascii " = " ++ pair.value ++ [newline]

def IniSection.render (sec : IniSection) : Bytes :=
  ascii "[" ++ sec.name ++ ascii "]" ++ [newline] ++ sec.pairs.flatMap IniPair.render

def Ini.render (ini : Ini) : Bytes := ini.sections.flatMap IniSection.render

/-! ## Reading one line

The text of a written line is the line itself, as no part of it can be taken for a comment or
trimmed away. An empty value leaves a blank at the end, and that is trimmed. -/

private theorem directives_line {u : Bytes} (hu : newline ∉ u) (hle : u.length ≤ iniLineMax - 1)
    (rest : Bytes) :
    directives (u ++ newline :: rest) = (directive u).toList ++ directives rest := by
  have hroom : 0 < iniLineMax - 1 := by decide
  have hend (v : Bytes) (_ : newline ∉ v) := directive_newline v
  rw [directives, records_line hend directive_nil hroom hu (Or.inr ⟨rest, rfl⟩),
    records_short directive_nil hu hle, records_blank hend directive_nil hroom, directives]

theorem Plain.surround {s m t : Bytes} (hs : Plain s) (ht : Plain t) (hs' : s ≠ []) (ht' : t ≠ [])
    (hm : m.all isPlain = true) : Plain (s ++ m ++ t) where
  bytes := by rw [List.all_append, List.all_append, hs.bytes, hm, ht.bytes]; rfl
  stripped := hs.stripped.surround ht.stripped hs' ht' m

theorem Plain.newline_notMem {s : Bytes} (h : Plain s) : newline ∉ s :=
  fun hmem ↦ absurd (h.of_mem hmem) (by decide)

theorem Plain.trim_eq {s : Bytes} (h : Plain s) : trim s = s := h.stripped.strip_eq

private theorem plain_sign {b : UInt8} (h : isPlain b = true) (hb : isspace b = false) :
    Plain [b] where
  bytes := by rw [List.all_cons, h]; rfl
  stripped := ⟨fun _ ↦ hb, fun _ ↦ hb⟩

theorem Plain.directive_eq {s : Bytes} (h : Plain s) (hne : s ≠ []) :
    directive s = some (directiveOf s) := by
  rw [directive, h.lineText_eq, if_neg hne]

theorem IniSection.WellFormed.plain_line {sec : IniSection} (h : sec.WellFormed) :
    Plain (ascii "[" ++ sec.name ++ ascii "]") :=
  .surround (plain_sign rfl rfl) (plain_sign rfl rfl) (by decide) (by decide) h.name.bytes

theorem IniSection.WellFormed.directive_line {sec : IniSection} (h : sec.WellFormed) :
    directive (ascii "[" ++ sec.name ++ ascii "]") = some (.opens sec.name) := by
  have hsplit : strchr (chr ']') (ascii "[" ++ sec.name ++ ascii "]")
      = some (ascii "[" ++ sec.name, []) := by
    refine strchr_eq_some.mpr ⟨?_, rfl⟩
    rw [List.mem_append, not_or]
    exact ⟨by decide, h.bracket⟩
  have htrim : trim (ascii "[" ++ sec.name).tail = sec.name := h.name.trim_eq
  have hhead : (ascii "[" ++ sec.name ++ ascii "]").head? = some (chr '[') := rfl
  have hne : ascii "[" ++ sec.name ++ ascii "]" ≠ [] := List.cons_ne_nil _ _
  rw [h.plain_line.directive_eq hne, directiveOf, if_pos hhead, hsplit]
  simp only [htrim]

theorem IniPair.WellFormed.directiveOf_line {pair : IniPair} (h : pair.WellFormed) (tail : Bytes)
    (htail : trim tail = pair.value) :
    directiveOf (pair.key ++ ascii " =" ++ tail) = .sets pair.key pair.value := by
  have hhead : (pair.key ++ ascii " =" ++ tail).head? ≠ some (chr '[') := by
    rw [List.append_assoc, List.head?_append_of_ne_nil _ h.nonempty]
    exact h.bracket
  have hsplit : strchr (chr '=') (pair.key ++ ascii " =" ++ tail)
      = some (pair.key ++ ascii " ", tail) := by
    -- the key has no equals sign, so the first one is the one that was written
    refine strchr_eq_some.mpr ⟨?_, by simp [ascii]⟩
    rw [List.mem_append, not_or]
    exact ⟨h.equals, by decide⟩
  have hkey : trim (pair.key ++ ascii " ") = pair.key :=
    (List.strip_concat rfl).trans h.key.trim_eq
  rw [directiveOf, if_neg hhead, hsplit]
  simp only [hkey, htail]

theorem IniPair.WellFormed.directive_line {pair : IniPair} (h : pair.WellFormed) :
    directive (pair.key ++ ascii " = " ++ pair.value) = some (.sets pair.key pair.value) := by
  by_cases hvalue : pair.value = []
  · -- without a value the blank behind the sign is trimmed with the line
    have hplain : Plain (pair.key ++ ascii " " ++ ascii "=") :=
      .surround h.key (plain_sign rfl rfl) h.nonempty (by decide) rfl
    have htext : lineText (pair.key ++ ascii " = ") = pair.key ++ ascii " =" := by
      have hsplit : pair.key ++ ascii " = " = pair.key ++ ascii " " ++ ascii "=" ++ [32] := by
        simp [ascii]
        decide
      rw [hsplit, lineText_space _ rfl, hplain.lineText_eq]
      simp [ascii]
    have hof := h.directiveOf_line [] (by rw [hvalue]; rfl)
    rw [List.append_nil] at hof
    rw [hvalue] at hof
    rw [hvalue, List.append_nil, directive, htext, if_neg (by simp [ascii]), hof]
  · have hplain : Plain (pair.key ++ ascii " = " ++ pair.value) :=
      .surround h.key h.value h.nonempty hvalue rfl
    have hblank : trim (ascii " " ++ pair.value) = pair.value :=
      (List.strip_cons rfl).trans h.value.trim_eq
    have hsplit : pair.key ++ ascii " = " ++ pair.value
        = pair.key ++ ascii " =" ++ (ascii " " ++ pair.value) := by
      simp [ascii]
    rw [hplain.directive_eq (by simp [h.nonempty]), hsplit, h.directiveOf_line _ hblank]

/-! ## Reading a store back -/

private theorem directives_renderPair {pair : IniPair} (h : pair.WellFormed)
    (rest : Bytes) :
    directives (pair.render ++ rest) = .sets pair.key pair.value :: directives rest := by
  have hnot : newline ∉ pair.key ++ ascii " = " ++ pair.value := by
    rw [List.mem_append, List.mem_append, not_or, not_or]
    exact ⟨⟨h.key.newline_notMem, by decide⟩, h.value.newline_notMem⟩
  have hle : (pair.key ++ ascii " = " ++ pair.value).length ≤ iniLineMax - 1 := by
    -- two texts of 127 bytes and the sign between them fit the array
    have hblank : (ascii " = ").length = 3 := rfl
    have hkey := h.key_short
    have hvalue := h.value_short
    rw [List.length_append, List.length_append, hblank]
    rw [iniMaxLen] at hkey hvalue
    rw [iniLineMax]
    omega
  have hline := directives_line hnot hle rest
  rw [h.directive_line] at hline
  rw [IniPair.render, List.append_assoc]
  exact hline

private theorem directives_renderPairs {pairs : List IniPair} (h : ∀ pair ∈ pairs, pair.WellFormed)
    (rest : Bytes) :
    directives (pairs.flatMap IniPair.render ++ rest)
      = (pairs.map fun pair ↦ .sets pair.key pair.value) ++ directives rest := by
  induction pairs with
  | nil => rfl
  | cons pair pairs ih =>
    rw [List.forall_mem_cons] at h
    rw [List.flatMap_cons, List.append_assoc, directives_renderPair h.1, ih h.2, List.map_cons,
      List.cons_append]

private theorem directives_renderSection {sec : IniSection} (h : sec.WellFormed) (rest : Bytes) :
    directives (sec.render ++ rest) = sec.directives ++ directives rest := by
  have hle : (ascii "[" ++ sec.name ++ ascii "]").length ≤ iniLineMax - 1 := by
    have hopen : (ascii "[").length = 1 := rfl
    have hclose : (ascii "]").length = 1 := rfl
    have hshort := h.short
    rw [List.length_append, List.length_append, hopen, hclose]
    rw [iniMaxLen] at hshort
    rw [iniLineMax]
    omega
  have hline := directives_line h.plain_line.newline_notMem hle
    (sec.pairs.flatMap IniPair.render ++ rest)
  rw [h.directive_line, directives_renderPairs h.pairs] at hline
  rw [IniSection.render, List.append_assoc, List.append_assoc]
  exact hline

private theorem directives_render {ini : Ini} (h : ini.WellFormed) :
    directives ini.render = ini.directives := by
  have hall (sections : List IniSection) (hsections : ∀ sec ∈ sections, sec.WellFormed) :
      directives (sections.flatMap IniSection.render)
        = sections.flatMap IniSection.directives := by
    induction sections with
    | nil => rfl
    | cons sec sections ih =>
      rw [List.forall_mem_cons] at hsections
      rw [List.flatMap_cons, directives_renderSection hsections.1, ih hsections.2,
        List.flatMap_cons]
  exact hall ini.sections h.sections

/-! ## Looking things up -/

theorem find?_eq_some_of_nodup {α β : Type*} [DecidableEq β] {f : α → β} {l : List α}
    (hl : (l.map f).Nodup) {a : α} {b : β} :
    l.find? (fun x ↦ f x = b) = some a ↔ a ∈ l ∧ f a = b := by
  constructor
  · intro h
    exact ⟨List.mem_of_find?_eq_some h, by simpa using List.find?_some h⟩
  · rintro ⟨ha, rfl⟩
    cases hfind : l.find? (fun x ↦ f x = f a) with
    | none => exact absurd (List.find?_eq_none.mp hfind a ha) (by simp)
    | some c =>
      have hc : f c = f a := by simpa using List.find?_some hfind
      rw [List.inj_on_of_nodup_map hl (List.mem_of_find?_eq_some hfind) ha hc]

/-- In a well-formed store a lookup finds what is there. -/
theorem iniGet_eq_some_iff {ini : Ini} (h : ini.WellFormed) {name key value : Bytes} :
    iniGet ini name key = some value ↔
      ∃ sec ∈ ini.sections, sec.name = name ∧ { key := key, value := value } ∈ sec.pairs := by
  rw [iniGet, Option.bind_eq_some_iff]
  constructor
  · rintro ⟨sec, hsec, hpair⟩
    obtain ⟨hmem, hname⟩ := (find?_eq_some_of_nodup h.distinct).mp hsec
    obtain ⟨pair, hfind, rfl⟩ := Option.map_eq_some_iff.mp hpair
    obtain ⟨hin, rfl⟩ := (find?_eq_some_of_nodup (h.sections sec hmem).distinct).mp hfind
    exact ⟨sec, hmem, hname, hin⟩
  · rintro ⟨sec, hmem, hname, hin⟩
    refine ⟨sec, (find?_eq_some_of_nodup h.distinct).mpr ⟨hmem, hname⟩, ?_⟩
    rw [(find?_eq_some_of_nodup (h.sections sec hmem).distinct).mpr ⟨hin, rfl⟩]
    rfl

/-- **The stores that `ini_load` can produce are the well-formed ones.** Whatever the file, what is
loaded from it is well formed; and every well-formed store, written down, is loaded as it was, with
its pairs and no others found by `ini_get`. -/
theorem iniLoad_image (ini : Ini) :
    (∀ fopen granted path, iniLoad fopen granted path = .ok ini → ini.WellFormed) ∧
    (ini.WellFormed → ∀ fopen path, fopen path = .ok ini.render →
      iniLoad fopen true (some path) = .ok ini ∧
      ∀ name key value, iniGet ini name key = some value ↔
        ∃ sec ∈ ini.sections, sec.name = name ∧ { key := key, value := value } ∈ sec.pairs) := by
  constructor
  · intro fopen granted path h
    obtain ⟨-, _, _, -, -, hwell, -⟩ := iniLoad_ok_iff.mp h
    exact hwell
  · intro hwell fopen path hopen
    refine ⟨?_, fun name key value ↦ iniGet_eq_some_iff hwell⟩
    exact iniLoad_ok_iff.mpr ⟨rfl, path, ini.render, rfl, hopen, hwell, directives_render hwell⟩

/-- Two sections, an empty value and a value with signs in it. -/
def sampleIni : Ini where
  sections :=
    [{ name := ascii "sink", pairs := [{ key := ascii "note", value := [] }] },
      { name := ascii "cam.a", pairs := [{ key := ascii "device", value := ascii "a=[b]" }] }]

theorem iniLoad_image_sample :
    sampleIni.WellFormed ∧ iniLoad (fun _ ↦ .ok sampleIni.render) true (some []) = .ok sampleIni ∧
      iniGet sampleIni (ascii "cam.a") (ascii "device") = some (ascii "a=[b]") := by
  have hwell : sampleIni.WellFormed := by decide
  obtain ⟨himage, hback⟩ := iniLoad_image sampleIni
  obtain ⟨hload, hget⟩ := hback hwell (fun _ ↦ .ok sampleIni.render) [] rfl
  refine ⟨himage _ _ _ hload, hload, (hget _ _ _).mpr ?_⟩
  exact ⟨_, List.mem_cons_of_mem _ List.mem_cons_self, rfl, List.mem_cons_self⟩

end SparseCamera
