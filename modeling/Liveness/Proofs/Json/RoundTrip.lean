import Liveness.Json.Printer
import Liveness.Json.Reader
import Liveness.Proofs.Numeric.Decimals
/-!
# Reading what was written

Every document is read back from its text: numerals keep the form in which they are written, escapes
are undone, and behind a value stands a comma, a closing bracket or nothing.
-/
namespace Liveness

theorem digitOf?_digitChar (d : Fin 10) : digitOf? (digitChar d) = some d := by
  revert d
  decide

namespace Json

def NoDigit (cs : List Char) : Prop := ∀ c ∈ cs.head?, digitOf? c = none

inductive Closed : List Char → Prop where
  | nil : Closed []
  | cons {c : Char} (h : c ∈ [',', ']', '\x7d']) (cs : List Char) : Closed (c :: cs)

section Numerals

variable {rest : List Char}

theorem noDigit_cons {c : Char} {cs : List Char} (h : digitOf? c = none) : NoDigit (c :: cs) := by
  rintro _ ⟨⟩
  exact h

/-- A numeral does not go on with what stands behind it. -/
theorem not_numeral_of_closing {c : Char} (h : c ∈ [',', ']', '\x7d']) :
    digitOf? c = none ∧ ¬(c = 'e' ∨ c = 'E') := by
  simp only [List.mem_cons, List.not_mem_nil, or_false] at h
  obtain rfl | rfl | rfl := h <;> decide

theorem Closed.noDigit (h : Closed rest) : NoDigit rest := by
  cases h with
  | nil => exact nofun
  | @cons c h cs => exact noDigit_cons (not_numeral_of_closing h).1

theorem spanDigits_digitChars (ds : List (Fin 10)) (h : NoDigit rest) :
    spanDigits (Numeral.digitChars ds ++ rest) = (ds, rest) := by
  induction ds with
  | nil =>
    cases rest with
    | nil => rfl
    | cons c cs =>
      show spanDigits (c :: cs) = _
      rw [spanDigits, h c rfl]
  | cons d ds ih =>
    show spanDigits (digitChar d :: (Numeral.digitChars ds ++ rest)) = _
    rw [spanDigits, digitOf?_digitChar]
    simp only [ih]

theorem readWhole_digitChars (n : Nat) (h : NoDigit rest) :
    readWhole (Numeral.digitChars (decimalDigits n) ++ rest) = some (n, rest) := by
  obtain ⟨d, ds, heq, -, hcanonical⟩ := decimalDigits_eq_cons n
  have hvalue := ofDecimalDigits_decimalDigits n
  rw [heq] at hvalue
  rw [readWhole, heq, spanDigits_digitChars _ h]
  simp only [if_neg hcanonical, hvalue]

def fractionChars (ds : List (Fin 10)) : List Char :=
  if ds.isEmpty then [] else '.' :: Numeral.digitChars ds

theorem readFraction_chars (ds : List (Fin 10)) (h : NoDigit rest) (hpoint : rest.head? ≠ some '.') :
    readFraction (fractionChars ds ++ rest) = some (ds, rest) := by
  cases ds with
  | nil =>
    show readFraction rest = _
    unfold readFraction
    split
    · exact absurd rfl hpoint
    · rfl
  | cons d ds =>
    show readFraction ('.' :: (Numeral.digitChars (d :: ds) ++ rest)) = _
    rw [readFraction, spanDigits_digitChars _ h]

theorem exponentChars_noDigit (e : Option Int) (h : Closed rest) :
    NoDigit (Numeral.exponentChars ['+'] e ++ rest) ∧
      (Numeral.exponentChars ['+'] e ++ rest).head? ≠ some '.' := by
  rcases e with _ | (e | e)
  · refine ⟨h.noDigit, ?_⟩
    cases h with
    | nil => exact nofun
    | @cons c h cs =>
      rintro ⟨⟩
      revert h
      decide
  · exact ⟨noDigit_cons rfl, nofun⟩
  · exact ⟨noDigit_cons rfl, nofun⟩

theorem readExponent_signed (negative : Bool) (n : Nat) (h : NoDigit rest) :
    readExponent ('e' :: (if negative then '-' else '+') ::
      (Numeral.digitChars (decimalDigits n) ++ rest)) =
        some (some (if negative then -(n : Int) else n), rest) := by
  obtain ⟨d, ds, heq, -, -⟩ := decimalDigits_eq_cons n
  have hvalue := ofDecimalDigits_decimalDigits n
  rw [heq] at hvalue ⊢
  cases negative with
  | true => simp only [readExponent, true_or, if_true, spanDigits_digitChars _ h, hvalue]
  | false =>
    simp only [readExponent, true_or, if_true, Bool.false_eq_true, if_false,
      spanDigits_digitChars _ h, hvalue]

theorem readExponent_chars (e : Option Int) (h : Closed rest) :
    readExponent (Numeral.exponentChars ['+'] e ++ rest) = some (e, rest) := by
  rcases e with _ | (e | e)
  · show readExponent rest = _
    cases h with
    | nil => rfl
    | @cons c h cs =>
      unfold readExponent
      simp only [if_neg (not_numeral_of_closing h).2]
  · exact readExponent_signed false e h.noDigit
  · exact readExponent_signed true (e + 1) h.noDigit

theorem readNumeral_signed (negative : Bool) {cs : List Char} (h : cs.head? ≠ some '-') :
    readNumeral ((if negative then ['-'] else []) ++ cs) =
      (readWhole cs).bind fun (whole, cs) => (readFraction cs).bind fun (fraction, cs) =>
        (readExponent cs).bind fun (exponent, cs) =>
          some (⟨negative, whole, fraction, exponent⟩, cs) := by
  cases negative with
  | true => rfl
  | false =>
    show readNumeral cs = _
    unfold readNumeral
    split
    rename_i sign cs' heq
    split at heq
    · exact absurd rfl h
    · obtain ⟨rfl, rfl⟩ := heq
      rfl

theorem numeral_chars (n : Numeral) (rest : List Char) :
    n.chars ['+'] ++ rest = (if n.negative then ['-'] else []) ++
      (Numeral.digitChars (decimalDigits n.whole) ++
        (fractionChars n.fraction ++ (Numeral.exponentChars ['+'] n.exponent ++ rest))) := by
  simp only [Numeral.chars, fractionChars, List.append_assoc]

theorem readNumeral_chars (n : Numeral) (h : Closed rest) :
    readNumeral (n.chars ['+'] ++ rest) = some (n, rest) := by
  obtain ⟨hexponent, hpoint⟩ := exponentChars_noDigit n.exponent h
  have hfraction := readFraction_chars n.fraction hexponent hpoint
  have hbehind : NoDigit
      (fractionChars n.fraction ++ (Numeral.exponentChars ['+'] n.exponent ++ rest)) := by
    cases n.fraction with
    | nil => exact hexponent
    | cons d ds => exact noDigit_cons rfl
  have hwhole := readWhole_digitChars n.whole hbehind
  have hunsigned : (Numeral.digitChars (decimalDigits n.whole) ++ (fractionChars n.fraction ++
      (Numeral.exponentChars ['+'] n.exponent ++ rest))).head? ≠ some '-' := by
    obtain ⟨d, ds, heq, -, -⟩ := decimalDigits_eq_cons n.whole
    have hdigits : ∀ d : Fin 10, digitChar d ≠ '-' := by decide
    rw [heq]
    exact fun hhead => hdigits d (Option.some.inj hhead)
  rw [numeral_chars, readNumeral_signed n.negative hunsigned]
  simp only [hwhole, hfraction, readExponent_chars n.exponent h, Option.bind_some]

end Numerals

section Strings

def consUnit (unit : Nat) : List Nat × List Char → List Nat × List Char
  | (units, rest) => (unit :: units, rest)

theorem readUnits_short {c : Char} {unit : Nat} (h : shortEscape? c = some unit) (cs : List Char) :
    readUnits ('\\' :: c :: cs) = (readUnits cs).map (consUnit unit) := by
  have hc : c ≠ 'u' := by
    rintro rfl
    cases h
  rw [readUnits, h]
  · cases readUnits cs <;> rfl
  · exact fun _ _ _ _ _ h => absurd h hc

theorem readUnits_hex {a b c d : Char} {unit : Nat} (h : hex4? a b c d = some unit)
    (cs : List Char) :
    readUnits ('\\' :: 'u' :: a :: b :: c :: d :: cs) = (readUnits cs).map (consUnit unit) := by
  rw [readUnits, h]
  cases readUnits cs <;> rfl

theorem readUnits_plain {c : Char} (hquote : c ≠ '\"') (hbackslash : c ≠ '\\')
    (hcontrol : 32 ≤ c.toNat) (cs : List Char) :
    readUnits (c :: cs) = (readUnits cs).map (consUnit c.toNat) := by
  have hplain : ¬(c.toNat < 32 ∨ c = '\\') := not_or.mpr ⟨Nat.not_lt.mpr hcontrol, hbackslash⟩
  rw [readUnits, if_neg hplain]
  · cases readUnits cs <;> rfl
  · exact fun h => absurd h hquote
  · exact fun _ _ _ _ _ h => absurd h hbackslash
  · exact fun _ _ h => absurd h hbackslash

theorem hex4?_hexDigit {n : Nat} (h : n < 32) :
    hex4? '0' '0' (hexDigit (n / 16)) (hexDigit (n % 16)) = some n := by
  revert n
  decide

theorem readUnits_escaped (c : Char) (cs : List Char) :
    readUnits (escaped c ++ cs) = (readUnits cs).map (consUnit c.toNat) := by
  by_cases hquote : c = '\"'
  · subst hquote
    exact readUnits_short rfl cs
  by_cases hbackslash : c = '\\'
  · subst hbackslash
    exact readUnits_short rfl cs
  by_cases hcontrol : 32 ≤ c.toNat
  · rw [escaped, if_neg hquote, if_neg hbackslash, if_pos hcontrol]
    exact readUnits_plain hquote hbackslash hcontrol cs
  rw [escaped, if_neg hquote, if_neg hbackslash, if_neg hcontrol]
  -- the five control characters that have a letter
  iterate 5
    split
    case isTrue h =>
      rw [h]
      exact readUnits_short rfl cs
  exact readUnits_hex (hex4?_hexDigit (Nat.not_le.mp hcontrol)) cs

theorem readUnits_flatMap (cs rest : List Char) :
    readUnits (cs.flatMap escaped ++ '\"' :: rest) = some (cs.map Char.toNat, rest) := by
  induction cs with
  | nil => rfl
  | cons c cs ih =>
    rw [List.flatMap_cons, List.append_assoc, readUnits_escaped, ih]
    rfl

theorem joinSurrogates_toNat (cs : List Char) : joinSurrogates (cs.map Char.toNat) = some cs := by
  induction cs with
  | nil => rfl
  | cons c cs ih =>
    have hvalid : c.toNat < 0xd800 ∨ 0xdfff < c.toNat ∧ c.toNat < 0x110000 := c.valid
    have hleading : ¬(0xd800 ≤ c.toNat ∧ c.toNat < 0xdc00) := by omega
    have htrailing : ¬(0xdc00 ≤ c.toNat ∧ c.toNat < 0xe000) := by omega
    rw [List.map_cons]
    unfold joinSurrogates
    rw [if_neg hleading, if_neg htrailing, ih, Option.map_some, Char.ofNat_toNat]

theorem readString_chars (s : Option String) (rest : List Char) :
    ∃ cs, stringChars s ++ rest = '\"' :: cs ∧ readString cs = some (s, rest) := by
  cases s with
  | none =>
    have hlone : stringChars none = '\"' :: ['\\', 'u', 'd', '8', '0', '0', '\"'] := by decide
    rw [hlone]
    refine ⟨['\\', 'u', 'd', '8', '0', '0', '\"'] ++ rest, rfl, ?_⟩
    have hunits : readUnits ('\\' :: 'u' :: 'd' :: '8' :: '0' :: '0' :: '\"' :: rest) =
        some ([0xd800], rest) := by
      rw [readUnits_hex rfl, readUnits]
      rfl
    have hjoined : joinSurrogates [0xd800] = none := by
      unfold joinSurrogates
      rw [if_pos (by decide)]
    simp only [readString, List.cons_append, List.nil_append, hunits, Option.bind_eq_bind,
      Option.bind_some, hjoined, Option.map_none, Option.pure_def]
  | some s =>
    refine ⟨s.toList.flatMap escaped ++ '\"' :: rest, ?_, ?_⟩
    · show quoted s ++ rest = _
      rw [quoted, List.cons_append, List.append_assoc, List.singleton_append]
    · simp only [readString, readUnits_flatMap, Option.bind_eq_bind, Option.bind_some,
        joinSurrogates_toNat, Option.map_some, String.ofList_toList, Option.pure_def]

end Strings

section Values

/-- The characters by which a reader tells a value that is not a numeral, a bracket or a blank. -/
def marks : List Char := ['n', 't', 'f', '\"', '[', '\x7b', ']', ' ', '\t', '\n', '\r']

theorem numeral_chars_eq_cons (n : Numeral) : ∃ c cs, n.chars ['+'] = c :: cs ∧ c ∉ marks := by
  have hchars := numeral_chars n []
  rw [List.append_nil] at hchars
  rw [hchars]
  obtain ⟨d, ds, heq, -, -⟩ := decimalDigits_eq_cons n.whole
  have hdigits : ∀ d : Fin 10, digitChar d ∉ marks := by decide
  rw [heq]
  cases n.negative with
  | true => exact ⟨_, _, rfl, by decide⟩
  | false => exact ⟨_, _, rfl, hdigits d⟩

theorem readValue_number {c : Char} (h : c ∉ marks) (fuel : Nat) (cs : List Char) :
    readValue (fuel + 1) (c :: cs) =
      (readNumeral (c :: cs)).bind fun (n, rest) => some (number n, rest) := by
  have hne : ∀ d ∈ marks, ∀ rest, c :: cs = d :: rest → False := by
    rintro d hd rest heq
    exact h ((List.cons.inj heq).1 ▸ hd)
  rw [readValue]
  · rfl
  · exact fun _ => hne 'n' (by decide) _
  · exact fun _ => hne 't' (by decide) _
  · exact fun _ => hne 'f' (by decide) _
  · exact fun _ => hne '\"' (by decide) _
  · exact fun _ => hne '[' (by decide) _
  · exact fun _ => hne '\x7b' (by decide) _

/-- A value does not begin with a blank, nor with the end of an array. -/
theorem chars_eq_cons (j : Json) : ∃ c cs, j.chars = c :: cs ∧ isBlank c = false ∧ c ≠ ']' := by
  cases j with
  | null => exact ⟨_, _, rfl, by decide, by decide⟩
  | bool b => cases b <;> exact ⟨_, _, rfl, by decide, by decide⟩
  | number n =>
    obtain ⟨c, cs, heq, hc⟩ := numeral_chars_eq_cons n
    refine ⟨c, cs, heq, ?_, fun hend => hc (hend ▸ by decide)⟩
    simp only [marks, List.mem_cons, not_or] at hc
    simp [isBlank, hc]
  | string s =>
    obtain ⟨cs, heq, -⟩ := readString_chars s []
    rw [List.append_nil] at heq
    exact ⟨_, cs, heq, by decide, by decide⟩
  | array items => exact ⟨_, _, rfl, by decide, by decide⟩
  | object members => exact ⟨_, _, rfl, by decide, by decide⟩

theorem skipBlanks_cons {c : Char} (h : isBlank c = false) (cs : List Char) :
    skipBlanks (c :: cs) = c :: cs :=
  List.dropWhile_cons_of_neg (by rw [h]; decide)

theorem skipBlanks_chars (j : Json) (rest : List Char) :
    skipBlanks (j.chars ++ rest) = j.chars ++ rest := by
  obtain ⟨c, cs, heq, hc, -⟩ := chars_eq_cons j
  rw [heq, List.cons_append, skipBlanks_cons hc]

theorem itemChars_cons_cons (item next : Json) (items : List Json) :
    itemChars (item :: next :: items) = item.chars ++ ',' :: itemChars (next :: items) := by
  rw [itemChars]
  exact nofun

theorem memberChars_singleton (key : Option String) (value : Json) :
    memberChars [(key, value)] = stringChars key ++ ':' :: value.chars := by
  rw [memberChars]

theorem memberChars_cons_cons (key : Option String) (value : Json) (next : Option String × Json)
    (members : List (Option String × Json)) :
    memberChars ((key, value) :: next :: members) =
      stringChars key ++ ':' :: (value.chars ++ ',' :: memberChars (next :: members)) := by
  rw [memberChars]
  exact nofun

theorem itemChars_eq_cons (item : Json) (items : List Json) :
    ∃ c cs, itemChars (item :: items) = c :: cs ∧ isBlank c = false ∧ c ≠ ']' := by
  obtain ⟨c, cs, heq, hblank, hend⟩ := chars_eq_cons item
  cases items with
  | nil => exact ⟨c, cs, heq, hblank, hend⟩
  | cons next items =>
    rw [itemChars_cons_cons, heq]
    exact ⟨c, _, rfl, hblank, hend⟩

theorem memberChars_eq_cons (member : Option String × Json) (members : List (Option String × Json)) :
    ∃ cs, memberChars (member :: members) = '\"' :: cs := by
  obtain ⟨key, value⟩ := member
  obtain ⟨cs, heq, -⟩ := readString_chars key []
  rw [List.append_nil] at heq
  cases members with
  | nil =>
    rw [memberChars_singleton, heq]
    exact ⟨_, rfl⟩
  | cons next members =>
    rw [memberChars_cons_cons, heq]
    exact ⟨_, rfl⟩

theorem readValue_array {c : Char} (hblank : isBlank c = false) (hend : c ≠ ']') (fuel : Nat)
    (cs : List Char) :
    readValue (fuel + 1) ('[' :: c :: cs) =
      (readItems fuel (c :: cs)).bind fun (items, rest) => some (array items, rest) := by
  rw [readValue, skipBlanks_cons hblank]
  split
  case h_1 heq => exact absurd (List.cons.inj heq).1 hend
  case h_2 => rfl

theorem readValue_object (fuel : Nat) (cs : List Char) :
    readValue (fuel + 1) ('\x7b' :: '\"' :: cs) =
      (readMembers fuel ('\"' :: cs)).bind fun (members, rest) => some (object members, rest) := by
  rw [readValue, skipBlanks_cons (by decide)]
  rfl

theorem readItems_last {fuel : Nat} {item : Json} {cs rest : List Char}
    (h : readValue fuel (skipBlanks cs) = some (item, ']' :: rest)) :
    readItems (fuel + 1) cs = some ([item], rest) := by
  rw [readItems, h]
  rfl

theorem readItems_more {fuel : Nat} {item : Json} {cs rest : List Char}
    (h : readValue fuel (skipBlanks cs) = some (item, ',' :: rest)) :
    readItems (fuel + 1) cs =
      (readItems fuel rest).bind fun (items, rest) => some (item :: items, rest) := by
  rw [readItems, h]
  rfl

theorem readMembers_last {fuel : Nat} {key : Option String} {value : Json} {cs rest : List Char}
    (h : readValue fuel (skipBlanks cs) = some (value, '\x7d' :: rest)) :
    readMembers (fuel + 1) (stringChars key ++ ':' :: cs) = some ([(key, value)], rest) := by
  obtain ⟨cs', heq, hkey⟩ := readString_chars key (':' :: cs)
  rw [heq, readMembers, skipBlanks_cons (by decide)]
  simp only [hkey, Option.bind_eq_bind, Option.bind_some]
  rw [skipBlanks_cons (by decide)]
  simp only [h]
  rfl

theorem readMembers_more {fuel : Nat} {key : Option String} {value : Json} {cs rest : List Char}
    (h : readValue fuel (skipBlanks cs) = some (value, ',' :: rest)) :
    readMembers (fuel + 1) (stringChars key ++ ':' :: cs) =
      (readMembers fuel rest).bind fun (members, rest) => some ((key, value) :: members, rest) := by
  obtain ⟨cs', heq, hkey⟩ := readString_chars key (':' :: cs)
  rw [heq, readMembers, skipBlanks_cons (by decide)]
  simp only [hkey, Option.bind_eq_bind, Option.bind_some]
  rw [skipBlanks_cons (by decide)]
  simp only [h]
  rfl

/-- With this much fuel a value, the items of an array and the members of an object are read back, if
their characters leave some over. -/
structure ReadsBack (fuel : Nat) : Prop where
  value : ∀ (j : Json) {rest : List Char}, 2 * j.chars.length < fuel → Closed rest →
    readValue fuel (j.chars ++ rest) = some (j, rest)
  items : ∀ (item : Json) (items : List Json) (rest : List Char),
    2 * (itemChars (item :: items)).length + 1 < fuel →
    readItems fuel (itemChars (item :: items) ++ ']' :: rest) = some (item :: items, rest)
  members : ∀ (member : Option String × Json) (members : List (Option String × Json))
    (rest : List Char), 2 * (memberChars (member :: members)).length + 1 < fuel →
    readMembers fuel (memberChars (member :: members) ++ '\x7d' :: rest) =
      some (member :: members, rest)

section ReadsBack

variable {fuel : Nat} {rest : List Char}

theorem ReadsBack.next_value (h : ReadsBack fuel) {j : Json} (hfuel : 2 * j.chars.length < fuel + 1)
    (hclosed : Closed rest) : readValue (fuel + 1) (j.chars ++ rest) = some (j, rest) := by
  match j with
  | null => rfl
  | bool true => rfl
  | bool false => rfl
  | number n =>
    obtain ⟨c, cs, heq, hc⟩ := numeral_chars_eq_cons n
    have hread := readNumeral_chars n hclosed
    show readValue (fuel + 1) (n.chars ['+'] ++ rest) = _
    rw [heq, List.cons_append] at hread ⊢
    rw [readValue_number hc, hread, Option.bind_some]
  | string s =>
    obtain ⟨cs, heq, hread⟩ := readString_chars s rest
    show readValue (fuel + 1) (stringChars s ++ rest) = _
    rw [heq, readValue]
    simp only [hread, Option.bind_eq_bind, Option.bind_some, Option.pure_def]
  | array [] => rfl
  | array (item :: items) =>
    obtain ⟨c, cs, heq, hblank, hend⟩ := itemChars_eq_cons item items
    simp only [chars, List.length_cons, List.length_append, List.length_nil] at hfuel
    have hitems := h.items item items rest (by omega)
    show readValue (fuel + 1) ('[' :: (itemChars (item :: items) ++ [']'] ++ rest)) = _
    rw [List.append_assoc, List.singleton_append]
    rw [heq, List.cons_append] at hitems ⊢
    rw [readValue_array hblank hend, hitems, Option.bind_some]
  | object [] => rfl
  | object (member :: members) =>
    obtain ⟨cs, heq⟩ := memberChars_eq_cons member members
    simp only [chars, List.length_cons, List.length_append, List.length_nil] at hfuel
    have hmembers := h.members member members rest (by omega)
    show readValue (fuel + 1) ('\x7b' :: (memberChars (member :: members) ++ ['\x7d'] ++ rest)) = _
    rw [List.append_assoc, List.singleton_append]
    rw [heq, List.cons_append] at hmembers ⊢
    rw [readValue_object, hmembers, Option.bind_some]

theorem ReadsBack.next_items (h : ReadsBack fuel) {item : Json} {items : List Json}
    (hfuel : 2 * (itemChars (item :: items)).length + 1 < fuel + 1) :
    readItems (fuel + 1) (itemChars (item :: items) ++ ']' :: rest) = some (item :: items, rest) := by
  cases items with
  | nil =>
    have hclosed : Closed (']' :: rest) := .cons (by decide) rest
    simp only [itemChars] at hfuel ⊢
    have hitem := h.value item (by omega) hclosed
    exact readItems_last (by rw [skipBlanks_chars, hitem])
  | cons next items =>
    have hclosed : Closed (',' :: (itemChars (next :: items) ++ ']' :: rest)) := .cons (by decide) _
    rw [itemChars_cons_cons, List.length_append, List.length_cons] at hfuel
    have hitem := h.value item (by omega) hclosed
    have hitems := h.items next items rest (by omega)
    rw [itemChars_cons_cons, List.append_assoc, List.cons_append]
    rw [readItems_more (by rw [skipBlanks_chars, hitem]), hitems, Option.bind_some]

theorem ReadsBack.next_members (h : ReadsBack fuel) {member : Option String × Json}
    {members : List (Option String × Json)}
    (hfuel : 2 * (memberChars (member :: members)).length + 1 < fuel + 1) :
    readMembers (fuel + 1) (memberChars (member :: members) ++ '\x7d' :: rest) =
      some (member :: members, rest) := by
  obtain ⟨key, value⟩ := member
  cases members with
  | nil =>
    have hclosed : Closed ('\x7d' :: rest) := .cons (by decide) rest
    rw [memberChars_singleton, List.length_append, List.length_cons] at hfuel
    have hvalue := h.value value (by omega) hclosed
    rw [memberChars_singleton, List.append_assoc, List.cons_append]
    exact readMembers_last (by rw [skipBlanks_chars, hvalue])
  | cons next members =>
    have hclosed : Closed (',' :: (memberChars (next :: members) ++ '\x7d' :: rest)) :=
      .cons (by decide) _
    rw [memberChars_cons_cons, List.length_append, List.length_cons, List.length_append,
      List.length_cons] at hfuel
    have hvalue := h.value value (by omega) hclosed
    have hmembers := h.members next members rest (by omega)
    rw [memberChars_cons_cons, List.append_assoc, List.cons_append, List.append_assoc,
      List.cons_append]
    rw [readMembers_more (by rw [skipBlanks_chars, hvalue]), hmembers, Option.bind_some]

/-- By induction on the fuel, as the reader goes. -/
theorem readsBack (fuel : Nat) : ReadsBack fuel := by
  induction fuel with
  | zero => exact ⟨nofun, nofun, nofun⟩
  | succ fuel ih =>
    exact ⟨fun _ _ => ih.next_value, fun _ _ _ => ih.next_items, fun _ _ _ => ih.next_members⟩

end ReadsBack

/-- What was written is read back, whatever the document. -/
theorem parse?_text (j : Json) : parse? j.text = some j := by
  have hread : readValue (2 * j.chars.length + 1) (skipBlanks j.chars) = some (j, []) := by
    have hchars := (readsBack (2 * j.chars.length + 1)).value j (Nat.lt_succ_self _) .nil
    have hblanks := skipBlanks_chars j []
    rw [List.append_nil] at hchars hblanks
    rw [hblanks, hchars]
  simp only [parse?, text, String.toList_ofList, hread]
  rfl

end Values

end Json

end Liveness
