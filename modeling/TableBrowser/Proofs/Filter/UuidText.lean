import TableBrowser.Proofs.Filter.ConditionText
import TableBrowser.Proofs.Text.LetterCase

/-!
# UUIDs as text

The text form of sixteen bytes is read back as these bytes in any letter case, and no other
text is.  So the value of a condition stands for bytes exactly if the condition compares, its
column is declared to hold bytes, and the value is the text form of these bytes.
-/

namespace TableBrowser

namespace Text

/-! ## Hexadecimal digits -/

theorem hexValue?_lowerChar : ∀ c : Char, hexValue? (lowerChar c) = hexValue? c := by
  refine forall_char (by decide +kernel) fun c hc => ?_
  rw [lowerChar_eq_self hc]

theorem hexValue?_hexDigit {n : Nat} (hn : n < 16) : hexValue? (hexDigit n) = some n := by
  have hdigits : ∀ n < 16, hexValue? (hexDigit n) = some n := by decide
  exact hdigits n hn

theorem hexValue?_eq_none {c : Char} (hc : 128 ≤ c.toNat) : hexValue? c = none := by
  have hbeyond : ∀ d : Char, d.toNat < 128 → ¬ c ≤ d := fun d hd hle =>
    absurd (Nat.lt_of_le_of_lt (Nat.le_trans hc (Char.le_def.mp hle)) hd) (Nat.lt_irrefl 128)
  rw [hexValue?, isDigit, decide_eq_false (hbeyond '9' (by decide)), Bool.and_false,
    if_neg Bool.false_ne_true, if_neg fun h => hbeyond 'f' (by decide) h.2,
    if_neg fun h => hbeyond 'F' (by decide) h.2]

/-- A digit is the one of its value, in one of the two letter cases. -/
theorem hexDigit_of_hexValue? {c : Char} {n : Nat} (hvalue : hexValue? c = some n) :
    n < 16 ∧ hexDigit n = lowerChar c := by
  have hall : ∀ c : Char, ∀ n ∈ hexValue? c, n < 16 ∧ hexDigit n = lowerChar c := by
    refine forall_char (by decide +kernel) fun c hc n hn => ?_
    rw [hexValue?_eq_none hc] at hn
    cases hn
  exact hall c n hvalue

theorem bytesOfHex?_lower (t : Text) : bytesOfHex? (lower t) = bytesOfHex? t := by
  induction t using bytesOfHex?.induct with
  | case1 => rfl
  | case2 c => rfl
  | case3 high low rest ih =>
      have hlower : lower (high :: low :: rest) = lowerChar high :: lowerChar low :: lower rest :=
        rfl
      rw [hlower, bytesOfHex?, bytesOfHex?, ih, hexValue?_lowerChar, hexValue?_lowerChar]

theorem bytesOfHex?_hexOfBytes (bytes : List UInt8) :
    bytesOfHex? (hexOfBytes bytes) = some bytes := by
  induction bytes with
  | nil => rfl
  | cons byte rest ih =>
      have hbyte : byte.toNat < 256 := byte.toNat_lt
      have hvalue : 16 * (byte.toNat / 16) + byte.toNat % 16 = byte.toNat := Nat.div_add_mod _ _
      have hhex : hexOfBytes (byte :: rest) =
          hexDigit (byte.toNat / 16) :: hexDigit (byte.toNat % 16) :: hexOfBytes rest := rfl
      rw [hhex, bytesOfHex?, hexValue?_hexDigit (by omega), hexValue?_hexDigit (by omega), ih]
      simp only [bind, Option.bind_some, pure, hvalue, UInt8.ofNat_toNat]

theorem hexOfBytes_of_bytesOfHex? {t : Text} {bytes : List UInt8}
    (hread : bytesOfHex? t = some bytes) : hexOfBytes bytes = lower t := by
  induction t using bytesOfHex?.induct generalizing bytes with
  | case1 =>
      cases hread
      rfl
  | case2 c => cases hread
  | case3 high low rest ih =>
      simp only [bytesOfHex?, bind, Option.bind_eq_some_iff, pure, Option.some.injEq] at hread
      obtain ⟨h, hhigh, l, hlow, more, hmore, rfl⟩ := hread
      obtain ⟨hh, hhighDigit⟩ := hexDigit_of_hexValue? hhigh
      obtain ⟨hl, hlowDigit⟩ := hexDigit_of_hexValue? hlow
      have hbyte : (UInt8.ofNat (16 * h + l)).toNat = 16 * h + l := by
        rw [UInt8.toNat_ofNat']
        exact Nat.mod_eq_of_lt (by omega)
      have hdiv : (16 * h + l) / 16 = h := by omega
      have hmod : (16 * h + l) % 16 = l := by omega
      calc
        hexOfBytes (UInt8.ofNat (16 * h + l) :: more)
          = hexDigit ((UInt8.ofNat (16 * h + l)).toNat / 16) ::
              hexDigit ((UInt8.ofNat (16 * h + l)).toNat % 16) :: hexOfBytes more := rfl
        _ = lowerChar high :: lowerChar low :: lower rest := by
              rw [hbyte, hdiv, hmod, hhighDigit, hlowDigit, ih hmore]

/-- Exactly the digits of some bytes, in any letter case, are read as these bytes. -/
theorem bytesOfHex?_eq_some_iff {t : Text} {bytes : List UInt8} :
    bytesOfHex? t = some bytes ↔ lower t = hexOfBytes bytes := by
  constructor
  · exact fun hread => (hexOfBytes_of_bytesOfHex? hread).symm
  · intro hlower
    rw [← bytesOfHex?_lower, hlower, bytesOfHex?_hexOfBytes]

theorem lower_hexOfBytes (bytes : List UInt8) : lower (hexOfBytes bytes) = hexOfBytes bytes :=
  bytesOfHex?_eq_some_iff.mp (bytesOfHex?_hexOfBytes bytes)

theorem length_hexOfBytes (bytes : List UInt8) : (hexOfBytes bytes).length = 2 * bytes.length := by
  induction bytes with
  | nil => rfl
  | cons byte rest ih =>
      have hlength : (hexOfBytes (byte :: rest)).length = (hexOfBytes rest).length + 2 := rfl
      rw [hlength, ih, List.length_cons, Nat.mul_add]

theorem isSome_hexValue?_of_mem {bytes : List UInt8} {c : Char} (hc : c ∈ hexOfBytes bytes) :
    (hexValue? c).isSome = true := by
  obtain ⟨byte, -, hdigit⟩ := List.mem_flatMap.mp hc
  have hbyte : byte.toNat < 256 := byte.toNat_lt
  simp only [List.mem_cons, List.not_mem_nil, or_false] at hdigit
  rcases hdigit with rfl | rfl
  · rw [hexValue?_hexDigit (by omega), Option.isSome_some]
  · rw [hexValue?_hexDigit (by omega), Option.isSome_some]

/-! ## Parts of a text -/

theorem containsPart_iff (part t : Text) : containsPart part t = true ↔ part <:+: t := by
  induction t with
  | nil => rw [containsPart, List.isEmpty_iff, List.infix_nil]
  | cons c rest ih =>
      rw [containsPart, Bool.or_eq_true, List.isPrefixOf_iff_prefix, ih, List.infix_cons_iff]

end Text

open TableBrowser.Text (lower sameLetters sameLetters_iff)

/-! ## Columns of bytes -/

namespace Column

/-- Somewhere in the type stands `binary`, in any letter case. -/
def MentionsBinary (type : Text) : Prop :=
  ∃ spelled, spelled <:+: type ∧ sameLetters spelled "binary" = true

theorem holdsBinary_iff (type : Text) : holdsBinary type = true ↔ MentionsBinary type := by
  have hbinary : lower "binary" = "binary".toList := by decide
  rw [holdsBinary, Text.containsPart_iff]
  constructor
  · rintro ⟨before, behind, hparts⟩
    obtain ⟨front, rest, rfl, hfront, -⟩ := List.map_eq_append_iff.mp hparts.symm
    obtain ⟨first, spelled, rfl, -, hspelled⟩ := List.map_eq_append_iff.mp hfront
    exact ⟨spelled, ⟨first, rest, rfl⟩, sameLetters_iff.mpr (hspelled.trans hbinary.symm)⟩
  · rintro ⟨spelled, ⟨before, behind, rfl⟩, hsame⟩
    refine ⟨lower before, lower behind, ?_⟩
    rw [Text.lower_append, Text.lower_append, sameLetters_iff.mp hsame, hbinary]

end Column

namespace Filter

namespace Uuid

/-! ## Groups of digits -/

theorem lower_hyphenate (sizes : List Nat) (digits : Text) :
    lower (hyphenate sizes digits) = hyphenate sizes (lower digits) := by
  induction sizes, digits using hyphenate.induct with
  | case1 digits => rfl
  | case2 size digits => exact Text.lower_take size digits
  | case3 size next sizes digits ih =>
      have hhyphen : lower ('-' :: hyphenate (next :: sizes) (digits.drop size)) =
          '-' :: lower (hyphenate (next :: sizes) (digits.drop size)) := rfl
      rw [hyphenate, hyphenate, Text.lower_append, hhyphen, ih, Text.lower_take, Text.lower_drop]

theorem mem_hyphenate {sizes : List Nat} {digits : Text} {c : Char}
    (hc : c ∈ hyphenate sizes digits) : c ∈ digits ∨ c = '-' := by
  induction sizes, digits using hyphenate.induct with
  | case1 digits => cases hc
  | case2 size digits => exact .inl (List.mem_of_mem_take hc)
  | case3 size next sizes digits ih =>
      rw [hyphenate, List.mem_append, List.mem_cons] at hc
      rcases hc with hc | rfl | hc
      · exact .inl (List.mem_of_mem_take hc)
      · exact .inr rfl
      · exact (ih hc).imp_left List.mem_of_mem_drop

/-- The number of digits in groups of the given sizes. -/
def width : List Nat → Nat
  | [] => 0
  | size :: sizes => size + width sizes

theorem joinGroups?_hyphenate {sizes : List Nat} {digits : Text}
    (hlength : digits.length = width sizes) :
    joinGroups? sizes (hyphenate sizes digits) = some digits := by
  induction sizes, digits using hyphenate.induct with
  | case1 digits =>
      rw [List.length_eq_zero_iff.mp hlength]
      rfl
  | case2 size digits =>
      have hsize : digits.length = size := hlength
      rw [hyphenate, List.take_of_length_le hsize.le, joinGroups?, if_pos hsize]
  | case3 size next sizes digits ih =>
      rw [width] at hlength
      have htaken : (digits.take size).length = size := by
        rw [List.length_take]
        omega
      have hdropped : (digits.drop size).length = width (next :: sizes) := by
        rw [List.length_drop]
        omega
      rw [hyphenate, joinGroups?, List.drop_left' htaken, List.take_left' htaken]
      simp only [ih hdropped, Option.map_some, List.take_append_drop]

theorem joinGroups?_eq_none {size next : Nat} {sizes : List Nat} {t : Text}
    (hhyphen : ∀ rest, t.drop size ≠ '-' :: rest) :
    joinGroups? (size :: next :: sizes) t = none := by
  rw [joinGroups?]
  split
  · next rest heq => exact absurd heq (hhyphen rest)
  · rfl

/-- Letter case plays no part in where the hyphens are. -/
theorem joinGroups?_lower (sizes : List Nat) (t : Text) :
    joinGroups? sizes (lower t) = (joinGroups? sizes t).map lower := by
  have hlength : (lower t).length = t.length := List.length_map _
  induction sizes, t using joinGroups?.induct with
  | case1 t hempty =>
      rw [List.isEmpty_iff.mp hempty]
      rfl
  | case2 t hnonempty =>
      cases t with
      | nil => exact absurd rfl hnonempty
      | cons c rest => rfl
  | case3 t => rw [joinGroups?, joinGroups?, hlength, if_pos rfl, if_pos rfl, Option.map_some]
  | case4 size t hsize =>
      rw [joinGroups?, joinGroups?, hlength, if_neg hsize, if_neg hsize, Option.map_none]
  | case5 size next sizes t rest hrest ih =>
      have hlower : (lower t).drop size = '-' :: lower rest := by
        rw [← Text.lower_drop, hrest]
        rfl
      rw [joinGroups?, joinGroups?, hlower, hrest]
      simp only [ih (List.length_map _), Option.map_map, ← Text.lower_take]
      congr 1
      funext digits
      exact (Text.lower_append _ _).symm
  | case6 size next sizes t hrest =>
      have hlower : ∀ rest, (lower t).drop size ≠ '-' :: rest := by
        intro rest heq
        rw [← Text.lower_drop] at heq
        obtain ⟨c, more, hmore, hc, -⟩ := List.map_eq_cons_iff.mp heq
        rw [(Text.lowerChar_eq_hyphen_iff c).mp hc] at hmore
        exact hrest more hmore
      rw [joinGroups?_eq_none hlower, joinGroups?_eq_none hrest, Option.map_none]

theorem eq_hyphenate_of_joinGroups? {sizes : List Nat} {t digits : Text}
    (hjoined : joinGroups? sizes t = some digits) : t = hyphenate sizes digits := by
  induction sizes, t using joinGroups?.induct generalizing digits with
  | case1 t hempty => exact List.isEmpty_iff.mp hempty
  | case2 t hnonempty =>
      rw [joinGroups?, if_neg hnonempty] at hjoined
      cases hjoined
  | case3 t =>
      rw [joinGroups?, if_pos rfl] at hjoined
      cases hjoined
      rw [hyphenate, List.take_length]
  | case4 size t hsize =>
      rw [joinGroups?, if_neg hsize] at hjoined
      cases hjoined
  | case5 size next sizes t rest hrest ih =>
      rw [joinGroups?, hrest] at hjoined
      obtain ⟨more, hmore, rfl⟩ := Option.map_eq_some_iff.mp hjoined
      have htaken : (t.take size).length = size := by
        have hlength := congrArg List.length hrest
        rw [List.length_drop, List.length_cons] at hlength
        rw [List.length_take]
        omega
      rw [hyphenate, List.take_left' htaken, List.drop_left' htaken, ← ih hmore, ← hrest,
        List.take_append_drop]
  | case6 size next sizes t hrest =>
      rw [joinGroups?_eq_none hrest] at hjoined
      cases hjoined

/-! ## Reading and writing -/

theorem length_digits (uuid : Uuid) : uuid.digits.length = width layout := by
  rw [digits, Text.length_hexOfBytes, uuid.length_bytes]
  rfl

theorem lower_toText (uuid : Uuid) : lower uuid.toText = uuid.toText := by
  rw [toText, lower_hyphenate, digits, Text.lower_hexOfBytes]

/-- The text form of a UUID has its digits, in some letter case, between the hyphens. -/
theorem exists_joinGroups?_of_lower {t : Text} {uuid : Uuid} (hlower : lower t = uuid.toText) :
    ∃ typed, joinGroups? layout t = some typed ∧ lower typed = uuid.digits := by
  refine Option.map_eq_some_iff.mp ?_
  rw [← joinGroups?_lower, hlower, toText, joinGroups?_hyphenate uuid.length_digits]

/-- Exactly the text form of a UUID, in any letter case, is read as it. -/
theorem ofText?_eq_some_iff {t : Text} {uuid : Uuid} :
    ofText? t = some uuid ↔ sameLetters t uuid.toText = true := by
  rw [sameLetters_iff, lower_toText]
  constructor
  · intro hread
    obtain ⟨bytes, hbytes, hsixteen⟩ := Option.bind_eq_some_iff.mp hread
    obtain ⟨typed, hjoined, hdigits⟩ := Option.bind_eq_some_iff.mp hbytes
    have huuid : uuid.bytes = bytes := by
      rw [ofBytes?] at hsixteen
      split at hsixteen
      · cases hsixteen
        rfl
      · cases hsixteen
    rw [eq_hyphenate_of_joinGroups? hjoined, lower_hyphenate,
      Text.bytesOfHex?_eq_some_iff.mp hdigits, ← huuid]
    rfl
  · intro hlower
    obtain ⟨typed, htyped, hdigits⟩ := exists_joinGroups?_of_lower hlower
    rw [ofText?, htyped, Option.bind_some, Text.bytesOfHex?_eq_some_iff.mpr hdigits,
      Option.bind_some, ofBytes?, dif_pos uuid.length_bytes]

/-- The characters of a UUID as text. -/
def isTextChar (c : Char) : Bool :=
  (Text.hexValue? c).isSome || c == '-'

/-- None of these characters is white space. -/
theorem isBlank_of_isTextChar {c : Char} (hc : isTextChar c = true) : Text.isBlank c = false := by
  have hall : ∀ c : Char, isTextChar c = true → Text.isBlank c = false := by
    refine Text.forall_char (by decide +kernel) fun c hbeyond hc => ?_
    rw [isTextChar, Text.hexValue?_eq_none hbeyond, Option.isSome_none, Bool.false_or,
      beq_iff_eq] at hc
    rw [hc]
    rfl
  exact hall c hc

theorem isTextChar_of_mem {t : Text} {uuid : Uuid} (hsame : sameLetters t uuid.toText = true)
    {c : Char} (hc : c ∈ t) : isTextChar c = true := by
  rw [sameLetters_iff, lower_toText] at hsame
  have hlower : Text.lowerChar c ∈ uuid.toText := hsame ▸ List.mem_map_of_mem hc
  rw [isTextChar, Bool.or_eq_true, beq_iff_eq]
  rcases mem_hyphenate hlower with hdigit | hhyphen
  · refine .inl ?_
    rw [← Text.hexValue?_lowerChar]
    exact Text.isSome_hexValue?_of_mem hdigit
  · exact .inr ((Text.lowerChar_eq_hyphen_iff c).mp hhyphen)

theorem isTrimmed_of_sameLetters {t : Text} {uuid : Uuid}
    (hsame : sameLetters t uuid.toText = true) : Text.IsTrimmed t := by
  have hsolid : ∀ c ∈ t, Text.isBlank c = false := fun c hc =>
    isBlank_of_isTextChar (isTextChar_of_mem hsame hc)
  constructor
  · exact fun c hc => hsolid c (List.mem_of_mem_head? hc)
  · exact fun c hc => hsolid c (List.mem_reverse.mp (List.mem_of_mem_head? hc))

/-- A UUID begins with a digit and has a hyphen further on. -/
theorem exists_hyphen {t : Text} {uuid : Uuid} (hsame : sameLetters t uuid.toText = true) :
    ∃ first rest, t = first :: rest ∧ (Text.hexValue? first).isSome = true ∧ '-' ∈ rest := by
  rw [sameLetters_iff, lower_toText] at hsame
  obtain ⟨digit, digits, hdigits⟩ : ∃ digit digits, uuid.digits = digit :: digits :=
    List.exists_cons_of_length_pos (by rw [length_digits]; decide)
  have htext : uuid.toText =
      digit :: (digits.take 7 ++ '-' :: hyphenate [4, 4, 4, 12] (uuid.digits.drop 8)) := by
    rw [toText, layout, hyphenate, hdigits]
    rfl
  rw [htext] at hsame
  obtain ⟨first, rest, rfl, hfirst, hrest⟩ := List.map_eq_cons_iff.mp hsame
  refine ⟨first, rest, rfl, ?_, ?_⟩
  · have hmem : digit ∈ uuid.digits := by
      rw [hdigits]
      exact List.mem_cons_self
    rw [← Text.hexValue?_lowerChar, hfirst]
    exact Text.isSome_hexValue?_of_mem hmem
  · have hmem : '-' ∈ lower rest := by
      rw [lower, hrest]
      simp
    obtain ⟨c, hc, hhyphen⟩ := List.mem_map.mp hmem
    rwa [(Text.lowerChar_eq_hyphen_iff c).mp hhyphen] at hc

/-- The hyphens keep a UUID from being a number. -/
theorem isNumeric_eq_false {t : Text} {uuid : Uuid} (hsame : sameLetters t uuid.toText = true) :
    Operand.isNumeric t = false := by
  obtain ⟨first, rest, rfl, hfirst, hhyphen⟩ := exists_hyphen hsame
  have hsign : first ≠ '-' := by
    rintro rfl
    exact absurd hfirst (by decide)
  have hdigits : ∀ part : Text, '-' ∈ part → Operand.isDigits part = false := by
    intro part hmem
    rw [Operand.isDigits, Bool.and_eq_false_iff]
    exact .inr (List.all_eq_false.mpr ⟨'-', hmem, by decide⟩)
  simp only [Operand.isNumeric]
  split
  · next whole fraction hsplit =>
      split at hsplit
      · next rest' heq => exact absurd (List.cons.inj heq).1 hsign
      · have hmem : '-' ∈ whole ++ '.' :: fraction := by
          rw [← Text.eq_of_splitOnce? hsplit]
          exact List.mem_cons_of_mem first hhyphen
        rw [Bool.and_eq_false_iff]
        refine (List.mem_append.mp hmem).imp (hdigits whole) fun hbehind => ?_
        exact hdigits fraction ((List.mem_cons.mp hbehind).resolve_left (by decide))
  · split
    · next rest' heq => exact absurd (List.cons.inj heq).1 hsign
    · exact hdigits _ (List.mem_cons_of_mem first hhyphen)

theorem ofToken?_eq_none {t : Text} {uuid : Uuid} (hsame : sameLetters t uuid.toText = true) :
    RelativeDate.ofToken? t = none := by
  obtain ⟨first, rest, rfl, hfirst, -⟩ := exists_hyphen hsame
  have hat : first ≠ '@' := by
    rintro rfl
    exact absurd hfirst (by decide)
  unfold RelativeDate.ofToken?
  split
  · next rest' heq => exact absurd (List.cons.inj heq).1 hat
  · rfl

end Uuid

/-! ## What stands for bytes -/

theorem Operand.classify_eq_binary_iff {type? : Option Text} {raw : Text} {uuid : Uuid} :
    Operand.classify type? raw = .binary uuid ↔
      (∃ type, type? = some type ∧ Column.MentionsBinary type) ∧
        sameLetters raw uuid.toText = true := by
  have hholds : type?.any Column.holdsBinary = true ↔
      ∃ type, type? = some type ∧ Column.MentionsBinary type := by
    rw [Option.any_eq_true]
    simp only [Column.holdsBinary_iff]
  rw [← hholds]
  constructor
  · intro hclass
    unfold Operand.classify at hclass
    split at hclass
    · cases hclass
    · split at hclass
      · next hbytes =>
          split at hclass
          · next read hread =>
              cases hclass
              exact ⟨hbytes, Uuid.ofText?_eq_some_iff.mp hread⟩
          · cases hclass
      · cases hclass
  · rintro ⟨hbytes, hsame⟩
    rw [Operand.classify, Uuid.isNumeric_eq_false hsame, if_neg Bool.false_ne_true, if_pos hbytes,
      Uuid.ofText?_eq_some_iff.mpr hsame]

/-- A value stands for bytes exactly in a comparison with a column of bytes, and where it is
the text form of these bytes. -/
theorem operandOf?_eq_binary_iff {columns : List Column} {column value : Text} {op : Operator}
    {uuid : Uuid} :
    operandOf? columns column op value = some (.binary uuid) ↔
      op.isPattern = false ∧
        (∃ type, Column.typeOf? columns column = some type ∧ Column.MentionsBinary type) ∧
        sameLetters value uuid.toText = true := by
  rw [← Operand.classify_eq_binary_iff]
  constructor
  · intro hoperand
    unfold operandOf? at hoperand
    split at hoperand
    · split at hoperand <;> cases hoperand
    · split at hoperand
      · cases hoperand
      · next hop => exact ⟨Bool.eq_false_iff.mpr hop, Option.some.inj hoperand⟩
  · rintro ⟨hop, hclass⟩
    have hdate := Uuid.ofToken?_eq_none (Operand.classify_eq_binary_iff.mp hclass).2
    rw [operandOf?, hdate, hop]
    exact congrArg some hclass

end Filter

end TableBrowser
