import Mathlib.Tactic.SplitIfs
import DistDirectives.Text.Utf8

/-!
# Laws of UTF-8

The bytes of a text are in the order of its characters: no character is encoded by the
beginning of another one's bytes, and of two characters the smaller one has the smaller byte
where their bytes first differ. Reading undoes writing, and only what was written is read as a
text.
-/

namespace DistDirectives.Utf8

/-! ## Order -/

/-- Bytes that stand before others in order, whatever follows the ones or the others. -/
def Precedes (left right : Bytes) : Prop :=
  ∃ shared low high leftRest rightRest, left = shared ++ low :: leftRest ∧
    right = shared ++ high :: rightRest ∧ low < high

theorem Precedes.cons {left right : Bytes} (precedes : Precedes left right) (byte : UInt8) :
    Precedes (byte :: left) (byte :: right) := by
  rcases precedes with ⟨shared, low, high, leftRest, rightRest, rfl, rfl, lower⟩
  exact ⟨byte :: shared, low, high, leftRest, rightRest, rfl, rfl, lower⟩

theorem precedes_of_lt {low high : Nat} (lower : low < high) (small : high < 256)
    (left right : Bytes) :
    Precedes (UInt8.ofNat low :: left) (UInt8.ofNat high :: right) := by
  refine ⟨[], _, _, left, right, rfl, rfl, ?_⟩
  rw [UInt8.lt_iff_toNat_lt, UInt8.toNat_ofNat', UInt8.toNat_ofNat']
  omega

/-- Where the first bytes are the same, the later ones decide. -/
theorem precedes_of_le {low high : Nat} {left right : Bytes} (le : low ≤ high) (small : high < 256)
    (later : low = high → Precedes left right) :
    Precedes (UInt8.ofNat low :: left) (UInt8.ofNat high :: right) := by
  rcases Nat.lt_or_eq_of_le le with lower | same
  · exact precedes_of_lt lower small _ _
  · rw [same]
    exact (later same).cons _

theorem Precedes.append_lt {left right : Bytes} (precedes : Precedes left right)
    (more others : Bytes) :
    left ++ more < right ++ others := by
  rcases precedes with ⟨shared, low, high, leftRest, rightRest, rfl, rfl, lower⟩
  rw [List.append_assoc, List.append_assoc]
  exact List.append_left_lt (List.Lex.rel lower)

/-- The bytes of a smaller character come first. -/
theorem precedes_of_char_lt {left right : Char} (lower : left < right) :
    Precedes (String.utf8EncodeChar left) (String.utf8EncodeChar right) := by
  have less : left.val.toNat < right.val.toNat := lower
  have bound : right.val.toNat < 0x110000 := by
    rcases right.valid with low | high
    · exact Nat.lt_trans low (by decide)
    · exact high.2
  generalize low_eq : left.val.toNat = low at less
  generalize high_eq : right.val.toNat = high at less bound
  simp only [String.utf8EncodeChar, low_eq, high_eq]
  -- more bytes begin with a larger one, so only encodings of one length are compared further
  split_ifs
  all_goals try first | omega | exact precedes_of_lt (by omega) (by omega) _ _
  · exact precedes_of_le (by omega) (by omega) fun _ => precedes_of_lt (by omega) (by omega) _ _
  · exact precedes_of_le (by omega) (by omega) fun _ =>
      precedes_of_le (by omega) (by omega) fun _ => precedes_of_lt (by omega) (by omega) _ _
  · exact precedes_of_le (by omega) (by omega) fun _ =>
      precedes_of_le (by omega) (by omega) fun _ =>
        precedes_of_le (by omega) (by omega) fun _ => precedes_of_lt (by omega) (by omega) _ _

theorem encode_cons (c : Char) (text : Text) :
    encode (c :: text) = String.utf8EncodeChar c ++ encode text := List.flatMap_cons

/-- Texts and their bytes are in the same order. -/
theorem encode_lt_encode {left right : Text} (lower : left < right) :
    encode left < encode right := by
  induction lower with
  | nil =>
      rename_i c text
      rw [encode_cons]
      cases bytes : String.utf8EncodeChar c with
      | nil => exact absurd bytes String.utf8EncodeChar_ne_nil
      | cons byte rest => exact List.Lex.nil
  | rel first =>
      rw [encode_cons, encode_cons]
      exact (precedes_of_char_lt first).append_lt _ _
  | cons _ ih =>
      rw [encode_cons, encode_cons]
      exact List.append_left_lt ih

/-! ## Bytes of characters -/

theorem within_iff {low high byte : UInt8} :
    within low high byte = true ↔ low.toNat ≤ byte.toNat ∧ byte.toNat ≤ high.toNat := by
  simp [within]

theorem continues_iff {b : UInt8} : continues b = true ↔ 128 ≤ b.toNat ∧ b.toNat ≤ 191 := within_iff

/-- Second bytes are continuation bytes, and two leads narrow them. -/
theorem narrowed_iff {low high a b : UInt8} {first last : UInt8} (differ : first ≠ last)
    (above : 128 ≤ low.toNat) (below : high.toNat ≤ 191) :
    (if a = first then within low 0xBF b else if a = last then within 0x80 high b
      else continues b) = true ↔
      (128 ≤ b.toNat ∧ b.toNat ≤ 191) ∧
        (a.toNat = first.toNat → low.toNat ≤ b.toNat) ∧
          (a.toNat = last.toNat → b.toNat ≤ high.toNat) := by
  have least : (0x80 : UInt8).toNat = 128 := rfl
  have greatest : (0xBF : UInt8).toNat = 191 := rfl
  simp only [UInt8.toNat_inj]
  split_ifs with isFirst isLast
  · subst isFirst
    simp only [within_iff, greatest, differ, true_imp_iff, false_imp_iff, and_true]
    omega
  · subst isLast
    simp only [within_iff, least, isFirst, true_imp_iff, false_imp_iff, true_and]
    omega
  · simp only [continues_iff, isFirst, isLast, false_imp_iff, and_true]

theorem secondOfThree_iff {a b : UInt8} :
    secondOfThree a b = true ↔ (128 ≤ b.toNat ∧ b.toNat ≤ 191) ∧
      (a.toNat = 0xE0 → 160 ≤ b.toNat) ∧ (a.toNat = 0xED → b.toNat ≤ 159) :=
  narrowed_iff (by decide) (by decide) (by decide)

theorem secondOfFour_iff {a b : UInt8} :
    secondOfFour a b = true ↔ (128 ≤ b.toNat ∧ b.toNat ≤ 191) ∧
      (a.toNat = 0xF0 → 144 ≤ b.toNat) ∧ (a.toNat = 0xF4 → b.toNat ≤ 143) :=
  narrowed_iff (by decide) (by decide) (by decide)

/-- The bytes that a character takes. -/
inductive IsLetter : Char → Bytes → Prop
  | one {a : UInt8} (small : a.toNat < 128) : IsLetter (Char.ofNat a.toNat) [a]
  | two {a b : UInt8} (lead : 194 ≤ a.toNat ∧ a.toNat ≤ 223)
      (second : 128 ≤ b.toNat ∧ b.toNat ≤ 191) :
      IsLetter (Char.ofNat (a.toNat % 32 * 64 + payload b)) [a, b]
  | three {a b c : UInt8} (lead : 224 ≤ a.toNat ∧ a.toNat ≤ 239) (second : secondOfThree a b = true)
      (third : 128 ≤ c.toNat ∧ c.toNat ≤ 191) :
      IsLetter (Char.ofNat ((a.toNat % 16 * 64 + payload b) * 64 + payload c)) [a, b, c]
  | four {a b c d : UInt8} (lead : 240 ≤ a.toNat ∧ a.toNat ≤ 244) (second : secondOfFour a b = true)
      (third : 128 ≤ c.toNat ∧ c.toNat ≤ 191) (fourth : 128 ≤ d.toNat ∧ d.toNat ≤ 191) :
      IsLetter (Char.ofNat (((a.toNat % 8 * 64 + payload b) * 64 + payload c) * 64 + payload d))
        [a, b, c, d]

theorem isLetter_utf8EncodeChar (letter : Char) :
    IsLetter letter (String.utf8EncodeChar letter) := by
  have valid : letter.val.toNat < 0xD800 ∨ 0xDFFF < letter.val.toNat ∧
      letter.val.toNat < 0x110000 :=
    letter.valid
  have read : Char.ofNat letter.val.toNat = letter := Char.ofNat_toNat letter
  simp only [String.utf8EncodeChar]
  generalize letter.val.toNat = number at valid read
  have byte {value : Nat} (small : value < 256) : (UInt8.ofNat value).toNat = value := by
    rw [UInt8.toNat_ofNat', Nat.mod_eq_of_lt small]
  rw [← read]
  split_ifs with one two three
  · have letters := @IsLetter.one (UInt8.ofNat number) (by rw [byte (by omega)]; omega)
    rwa [byte (by omega)] at letters
  · have letters :=
      @IsLetter.two (UInt8.ofNat (number / 64 % 32 + 192)) (UInt8.ofNat (number % 64 + 128))
      (by rw [byte (by omega)]; omega) (by rw [byte (by omega)]; omega)
    rw [payload, byte (by omega), byte (by omega)] at letters
    have same : (number / 64 % 32 + 192) % 32 * 64 + (number % 64 + 128) % 64 = number := by omega
    rwa [same] at letters
  · have letters := @IsLetter.three (UInt8.ofNat (number / 4096 % 16 + 224))
      (UInt8.ofNat (number / 64 % 64 + 128)) (UInt8.ofNat (number % 64 + 128))
      (by rw [byte (by omega)]; omega)
      (by rw [secondOfThree_iff, byte (by omega), byte (by omega)]; omega)
      (by rw [byte (by omega)]; omega)
    rw [payload, payload, byte (by omega), byte (by omega), byte (by omega)] at letters
    have same : ((number / 4096 % 16 + 224) % 16 * 64 + (number / 64 % 64 + 128) % 64) * 64 +
        (number % 64 + 128) % 64 = number := by omega
    rwa [same] at letters
  · have letters := @IsLetter.four (UInt8.ofNat (number / 262144 % 8 + 240))
      (UInt8.ofNat (number / 4096 % 64 + 128)) (UInt8.ofNat (number / 64 % 64 + 128))
      (UInt8.ofNat (number % 64 + 128)) (by rw [byte (by omega)]; omega)
      (by rw [secondOfFour_iff, byte (by omega), byte (by omega)]; omega)
      (by rw [byte (by omega)]; omega) (by rw [byte (by omega)]; omega)
    rw [payload, payload, payload, byte (by omega), byte (by omega), byte (by omega),
      byte (by omega)] at letters
    have same : (((number / 262144 % 8 + 240) % 8 * 64 + (number / 4096 % 64 + 128) % 64) * 64 +
        (number / 64 % 64 + 128) % 64) * 64 + (number % 64 + 128) % 64 = number := by omega
    rwa [same] at letters

/-- The bytes of a character whose number is known. -/
theorem utf8EncodeChar_ofNat {number : Nat} (valid : number.isValidChar) :
    String.utf8EncodeChar (Char.ofNat number) =
      if number ≤ 0x7F then [UInt8.ofNat number]
      else if number ≤ 0x7FF then
        [UInt8.ofNat (number / 64 % 32 + 192), UInt8.ofNat (number % 64 + 128)]
      else if number ≤ 0xFFFF then
        [UInt8.ofNat (number / 4096 % 16 + 224), UInt8.ofNat (number / 64 % 64 + 128),
          UInt8.ofNat (number % 64 + 128)]
      else
        [UInt8.ofNat (number / 262144 % 8 + 240), UInt8.ofNat (number / 4096 % 64 + 128),
          UInt8.ofNat (number / 64 % 64 + 128), UInt8.ofNat (number % 64 + 128)] := by
  have number_eq : (Char.ofNat number).val.toNat = number := by
    rw [Char.ofNat, dif_pos valid]
    rfl
  unfold String.utf8EncodeChar
  dsimp only
  generalize (Char.ofNat number).val.toNat = read at number_eq ⊢
  rw [number_eq]

theorem ofNat_eq {number : Nat} {byte : UInt8} (same : number = byte.toNat) :
    UInt8.ofNat number = byte := by
  rw [same, UInt8.ofNat_toNat]

/-- A character takes the bytes that it is written with, and no others. -/
theorem IsLetter.eq {letter : Char} {bytes : Bytes} (letters : IsLetter letter bytes) :
    String.utf8EncodeChar letter = bytes := by
  cases letters with
  | @one a small =>
      rw [utf8EncodeChar_ofNat (by simp only [Nat.isValidChar]; omega), if_pos (by omega),
        UInt8.ofNat_toNat]
  | @two a b lead second =>
      rw [payload, utf8EncodeChar_ofNat (by simp only [Nat.isValidChar]; omega), if_neg (by omega),
        if_pos (by omega), @ofNat_eq _ a (by omega), @ofNat_eq _ b (by omega)]
  | @three a b c lead second third =>
      rw [secondOfThree_iff] at second
      rw [payload, payload, utf8EncodeChar_ofNat (by simp only [Nat.isValidChar]; omega),
        if_neg (by omega), if_neg (by omega), if_pos (by omega), @ofNat_eq _ a (by omega),
        @ofNat_eq _ b (by omega), @ofNat_eq _ c (by omega)]
  | @four a b c d lead second third fourth =>
      rw [secondOfFour_iff] at second
      rw [payload, payload, payload, utf8EncodeChar_ofNat (by simp only [Nat.isValidChar]; omega),
        if_neg (by omega), if_neg (by omega), if_neg (by omega), @ofNat_eq _ a (by omega),
        @ofNat_eq _ b (by omega), @ofNat_eq _ c (by omega), @ofNat_eq _ d (by omega)]

/-! ## Reading what was written -/

/-- The bytes of a character are read as that character, whatever follows. -/
theorem IsLetter.scan_append {letter : Char} {bytes : Bytes} (letters : IsLetter letter bytes)
    (rest : Bytes) : scan (bytes ++ rest) = some letter :: scan rest := by
  cases letters with
  | one small =>
      rw [List.singleton_append, scan.eq_def]
      exact if_pos small
  | two lead second =>
      rw [List.cons_append, List.singleton_append, scan.eq_def]
      dsimp only
      rw [if_neg (by omega), if_pos ((@within_iff 0xC2 0xDF _).2 lead),
        if_pos (continues_iff.2 second)]
  | three lead second third =>
      rw [List.cons_append, List.cons_append, List.singleton_append, scan.eq_def]
      dsimp only
      rw [if_neg (by omega), if_neg (by simp [within_iff]; omega),
        if_pos ((@within_iff 0xE0 0xEF _).2 lead), if_pos second, if_pos (continues_iff.2 third)]
  | four lead second third fourth =>
      rw [List.cons_append, List.cons_append, List.cons_append, List.singleton_append, scan.eq_def]
      dsimp only
      rw [if_neg (by omega), if_neg (by simp [within_iff]; omega),
        if_neg (by simp [within_iff]; omega),
        if_pos ((@within_iff 0xF0 0xF4 _).2 lead), if_pos second, if_pos (continues_iff.2 third),
        if_pos (continues_iff.2 fourth)]

/-- What is read as a character are the bytes that it takes. -/
theorem exists_isLetter_of_scan {bytes : Bytes} {letter : Char} {more : List (Option Char)}
    (read : scan bytes = some letter :: more) :
    ∃ front rest, bytes = front ++ rest ∧ IsLetter letter front ∧ more = scan rest := by
  cases bytes with
  | nil =>
      rw [scan.eq_def] at read
      cases read
  | cons a rest =>
      rw [scan.eq_def] at read
      dsimp only at read
      split_ifs at read with small two three four
      · cases read
        exact ⟨[a], rest, rfl, .one small, rfl⟩
      · cases rest with
        | nil => cases read
        | cons b rest =>
            dsimp only at read
            split_ifs at read with second
            · cases read
              exact ⟨[a, b], rest, rfl, .two (within_iff.1 two) (continues_iff.1 second), rfl⟩
            · cases read
      · rcases rest with _ | ⟨b, rest⟩
        · cases read
        dsimp only at read
        split_ifs at read with second
        · rcases rest with _ | ⟨c, rest⟩
          · cases read
          dsimp only at read
          split_ifs at read with third
          · cases read
            exact ⟨[a, b, c], rest, rfl,
              .three (within_iff.1 three) second (continues_iff.1 third), rfl⟩
          · cases read
        · cases read
      · rcases rest with _ | ⟨b, rest⟩
        · cases read
        dsimp only at read
        split_ifs at read with second
        · rcases rest with _ | ⟨c, rest⟩
          · cases read
          dsimp only at read
          split_ifs at read with third
          · rcases rest with _ | ⟨d, rest⟩
            · cases read
            dsimp only at read
            split_ifs at read with fourth
            · cases read
              exact ⟨[a, b, c, d], rest, rfl,
                .four (within_iff.1 four) second (continues_iff.1 third) (continues_iff.1 fourth),
                  rfl⟩
            · cases read
          · cases read
        · cases read
      · cases read

theorem scan_cons_ne_nil (a : UInt8) (rest : Bytes) : scan (a :: rest) ≠ [] := by
  rw [scan.eq_def]
  dsimp only
  repeat' split
  all_goals simp

theorem scan_encode (text : Text) : scan (encode text) = text.map some := by
  induction text with
  | nil => rfl
  | cons letter text ih =>
      rw [encode_cons, (isLetter_utf8EncodeChar letter).scan_append, ih, List.map_cons]

theorem encode_of_scan {bytes : Bytes} {text : Text} (read : scan bytes = text.map some) :
    encode text = bytes := by
  induction text generalizing bytes with
  | nil =>
      cases bytes with
      | nil => rfl
      | cons a rest => exact absurd read (scan_cons_ne_nil a rest)
  | cons letter text ih =>
      obtain ⟨front, rest, rfl, letters, more⟩ := exists_isLetter_of_scan read
      rw [encode_cons, letters.eq, ih more.symm]

theorem mapM_id_eq_some_iff {items : List (Option Char)} {text : Text} :
    items.mapM id = some text ↔ items = text.map some := by
  induction items generalizing text with
  | nil => cases text <;> simp
  | cons item items ih =>
      cases item with
      | none => cases text <;> simp
      | some letter =>
          rw [List.mapM_cons]
          cases read : items.mapM id with
          | none =>
              have unread := fun text => mt (@ih text).2 (by simp [read])
              cases text with
              | nil => simp
              | cons first text => simp [unread text]
          | some rest =>
              cases text with
              | nil => simp
              | cons first text => simp [← @ih text, read]

/-- Bytes are read as a text exactly when they are the bytes of the text. -/
theorem decode?_eq_some_iff {bytes : Bytes} {text : Text} :
    decode? bytes = some text ↔ bytes = encode text := by
  rw [decode?, mapM_id_eq_some_iff]
  constructor
  · exact fun read => (encode_of_scan read).symm
  · rintro rfl
    exact scan_encode text

theorem encode_injective : Function.Injective encode := by
  intro text other same
  have read := decode?_eq_some_iff.2 same
  rw [decode?_eq_some_iff.2 rfl] at read
  exact Option.some.inj read

end DistDirectives.Utf8
