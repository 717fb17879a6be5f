import SparseCamera.Ini.RoundTrip
import SparseCamera.Lib.Numerals

/-!
# Typed values

A value is text until somebody asks for a number. A key that is absent yields the default; a value
that is there has to be what was asked for from its first byte to its last, or the lookup fails with
a message that names the section and the key.
-/

namespace SparseCamera

open CString

/-- A message for `err`: it is about the configuration as a whole, about a section, or about the
value of a key. -/
inductive ConfErr where
  | config (what : Bytes)
  | inSection (name what : Bytes)
  | atKey (name key what : Bytes)
deriving DecidableEq

/-- The message, before it is cut to the caller's array. -/
def ConfErr.text : ConfErr → Bytes
  | config what => what
  | inSection name what => ascii "[" ++ name ++ ascii "]: " ++ what
  | atKey name key what => ascii "[" ++ name ++ ascii "] " ++ key ++ ascii ": " ++ what

def quoted (s : Bytes) : Bytes := ascii "'" ++ s ++ ascii "'"

/-! ## Lookups -/

/-- A typed lookup: `read` reads the value or says what is wrong with it. -/
def iniGetWith {α : Type} (ini : Ini) (name key : Bytes) (dflt : α)
    (read : Bytes → Except Bytes α) : Except ConfErr α :=
  match iniGet ini name key with
  | none => .ok dflt
  | some raw => (read raw).mapError (.atKey name key)

/-- `ini_get_str`. -/
def iniGetStr (ini : Ini) (name key : Bytes) (dflt : Option Bytes) :
    Except ConfErr (Option Bytes) :=
  iniGetWith ini name key dflt fun raw ↦
    if raw = [] then .error (ascii "value is empty") else .ok (some raw)

/-- `ini_get_u32`. -/
def iniGetU32 (ini : Ini) (name key : Bytes) (dflt : UInt32) : Except ConfErr UInt32 :=
  iniGetWith ini name key dflt fun raw ↦
    let bad := .error (quoted raw ++ ascii " is not an unsigned 32-bit integer")
    match strtoul raw with
    | none => bad
    | some v =>
      if trim v.rest ≠ [] ∨ v.erange = true ∨ 0xffffffff < v.value then bad
      else .ok v.value.toUInt32

/-- `ini_get_f64`. -/
def iniGetF64 (ini : Ini) (name key : Bytes) (dflt : ExtRat) : Except ConfErr ExtRat :=
  iniGetWith ini name key dflt fun raw ↦
    let bad := .error (quoted raw ++ ascii " is not a number")
    match strtod raw with
    | none => bad
    | some v => if trim v.rest ≠ [] ∨ v.erange = true then bad else .ok v.value

/-- `ini_get_bool`. -/
def iniGetBool (ini : Ini) (name key : Bytes) (dflt : Bool) : Except ConfErr Bool :=
  iniGetWith ini name key dflt fun raw ↦
    let yes := [ascii "true", ascii "yes", ascii "on", ascii "1"]
    let no := [ascii "false", ascii "no", ascii "off", ascii "0"]
    if yes.any (sameText raw) then .ok true
    else if no.any (sameText raw) then .ok false
    else .error
      (quoted raw ++ ascii " is not a boolean (true/false, yes/no, on/off, 1/0)")

/-- `ini_check_keys`. -/
def iniCheckKeys (ini : Ini) (name : Bytes) (allowed : List Bytes) : Except ConfErr Unit :=
  match findSection ini.sections name with
  | none => .error (.inSection name (ascii "no such section"))
  | some sec =>
    match sec.pairs.find? fun pair ↦ !allowed.any (pair.key == ·) with
    | none => .ok ()
    | some pair => .error (.inSection name (ascii "unknown key " ++ quoted pair.key))

/-! ## What they come to

For a caller only two things count: whether there is a value, and what reading it gives. A failed
lookup ends the start, so nobody asks what it would have been. -/

section Lookups

variable {α β : Type} {ini : Ini} {name key : Bytes}

theorem bind_eq_ok {ε : Type} {x : Except ε α} {f : α → Except ε β} {b : β} :
    x >>= f = .ok b ↔ ∃ a, x = .ok a ∧ f a = .ok b := by
  cases x with
  | error e => exact iff_of_false (fun h ↦ by cases h) (fun ⟨_, h, _⟩ ↦ by cases h)
  | ok a => exact ⟨fun h ↦ ⟨a, rfl, h⟩, fun ⟨_, h, hf⟩ ↦ Except.ok.inj h ▸ hf⟩

theorem iniGetWith_eq_ok {dflt a : α} {read : Bytes → Except Bytes α} :
    iniGetWith ini name key dflt read = .ok a ↔
      (iniGet ini name key = none ∧ dflt = a) ∨
        ∃ raw, iniGet ini name key = some raw ∧ read raw = .ok a := by
  rw [iniGetWith]
  cases hget : iniGet ini name key with
  | none => simp
  | some raw => cases hread : read raw <;> simp [Except.mapError, hread]

theorem iniCheckKeys_eq_ok {allowed : List Bytes} :
    iniCheckKeys ini name allowed = .ok () ↔
      ∃ sec, findSection ini.sections name = some sec ∧ ∀ pair ∈ sec.pairs, pair.key ∈ allowed := by
  rw [iniCheckKeys]
  cases hfind : findSection ini.sections name with
  | none => simp
  | some sec =>
    simp only [Option.some.injEq, exists_eq_left']
    cases hbad : sec.pairs.find? fun pair ↦ !allowed.any (pair.key == ·) with
    | none =>
      have hall := List.find?_eq_none.mp hbad
      simpa using hall
    | some pair =>
      have hfresh : ∀ key ∈ allowed, ¬pair.key = key := by simpa using List.find?_some hbad
      refine iff_of_false (by simp) ?_
      intro hall
      exact hfresh _ (hall pair (List.mem_of_find?_eq_some hbad)) rfl

theorem iniCheckKeys_mono {keys allowed : List Bytes} (h : iniCheckKeys ini name keys = .ok ())
    (hsub : keys ⊆ allowed) : iniCheckKeys ini name allowed = .ok () := by
  obtain ⟨sec, hfind, hkeys⟩ := iniCheckKeys_eq_ok.mp h
  exact iniCheckKeys_eq_ok.mpr ⟨sec, hfind, fun pair hpair ↦ hsub (hkeys pair hpair)⟩

theorem iniGetWith_of_checkKeys {keys : List Bytes} (h : iniCheckKeys ini name keys = .ok ())
    (hkey : key ∉ keys) (dflt : α) (read : Bytes → Except Bytes α) :
    iniGetWith ini name key dflt read = .ok dflt := by
  obtain ⟨sec, hfind, hkeys⟩ := iniCheckKeys_eq_ok.mp h
  refine iniGetWith_eq_ok.mpr (Or.inl ⟨?_, rfl⟩)
  rw [iniGet, hfind, Option.bind_some, Option.map_eq_none_iff, List.find?_eq_none]
  intro pair hpair heq
  exact hkey (of_decide_eq_true heq ▸ hkeys pair hpair)

end Lookups

end SparseCamera
