import ChannelConfig.Policy.Token
import ChannelConfig.Proofs.Result
import ChannelConfig.Proofs.Text

/-! Scanning of texts that are put together from pieces. `Scans cs ts` says that the piece `cs`
gives the tokens `ts` whatever comes after it. Pieces that end in a parenthesis, a comma or a quote
do; words and numbers do together with what stops them. -/

set_option autoImplicit false

namespace ChannelConfig.Policy.Token

/-- The piece `cs` of a text gives the tokens `ts` in front of those of the rest. -/
def Scans (cs : List Char) (ts : List Token) : Prop :=
  ∀ rest after, (∀ offset, scan offset rest = .ok after) →
    ∀ offset, scan offset (cs ++ rest) = .ok (ts ++ after)

theorem Scans.append {cs ds : List Char} {ts us : List Token} (h : Scans cs ts) (h' : Scans ds us) :
    Scans (cs ++ ds) (ts ++ us) := by
  intro rest after hrest offset
  rw [List.append_assoc, List.append_assoc]
  exact h _ _ (h' rest after hrest) offset

theorem Scans.scan {cs : List Char} {ts : List Token} (h : Scans cs ts) (offset : Nat) :
    scan offset cs = .ok ts := by
  have hnil : ∀ offset, Token.scan offset [] = .ok [] := fun offset => by rw [Token.scan]
  have := h [] [] hnil offset
  rwa [List.append_nil, List.append_nil] at this

/-! ## Single characters -/

theorem scans_openParen : Scans ['('] [.openParen] := by
  intro rest after hrest offset
  rw [List.singleton_append, Token.scan, if_neg (by decide), if_pos rfl, hrest]
  rfl

theorem scans_closeParen : Scans [')'] [.closeParen] := by
  intro rest after hrest offset
  rw [List.singleton_append, Token.scan, if_neg (by decide), if_neg (by decide), if_pos rfl, hrest]
  rfl

theorem scans_comma : Scans [','] [.comma] := by
  intro rest after hrest offset
  rw [List.singleton_append, Token.scan, if_neg (by decide), if_neg (by decide),
    if_neg (by decide), if_pos rfl, hrest]
  rfl

/-! ## Classes of characters -/

/-- The code points of the blanks. -/
def blankPoints : List Nat :=
  [9, 10, 11, 12, 13, 0x20, 0x85, 0xA0, 0x1680, 0x2000, 0x2001, 0x2002, 0x2003, 0x2004, 0x2005,
    0x2006, 0x2007, 0x2008, 0x2009, 0x200A, 0x2028, 0x2029, 0x202F, 0x205F, 0x3000]

theorem toNat_mem_blankPoints {c : Char} (h : Text.isBlank c = true) : c.toNat ∈ blankPoints := by
  simp only [Text.isBlank, Bool.or_eq_true, Bool.and_eq_true, decide_eq_true_eq] at h
  simp only [blankPoints, List.mem_cons, List.not_mem_nil, or_false]
  omega

/-- Blanks separate words. -/
theorem isWordChar_of_isBlank {c : Char} (h : Text.isBlank c = true) : isWordChar c = false := by
  have hpoints : ∀ n ∈ blankPoints, isWordChar (Char.ofNat n) = false := by decide +kernel
  have := hpoints c.toNat (toNat_mem_blankPoints h)
  rwa [Char.ofNat_toNat] at this

theorem isWordChar_of_isAlphanum {c : Char} (h : c.isAlphanum = true) : isWordChar c = true := by
  rw [isWordChar, Text.isAlphanumeric_of_isAlphanum h]
  rfl

theorem isWordChar_of_isDigit {c : Char} (h : c.isDigit = true) : isWordChar c = true :=
  isWordChar_of_isAlphanum (by rw [Char.isAlphanum, h, Bool.or_true])

theorem isWordChar_facts {c : Char} (h : isWordChar c = true) :
    ¬ Text.isBlank c = true ∧ c ≠ '(' ∧ c ≠ ')' ∧ c ≠ ',' ∧ ¬ (c = '\'' ∨ c = '"') := by
  refine ⟨fun hblank => ?_, ?_, ?_, ?_, ?_⟩
  · rw [isWordChar_of_isBlank hblank] at h
    cases h
  · rintro rfl
    revert h
    decide
  · rintro rfl
    revert h
    decide
  · rintro rfl
    revert h
    decide
  · rintro (rfl | rfl) <;> revert h <;> decide

/-! ## Longer tokens -/

theorem scan_quote {quote : Char} (hquote : quote = '\'' ∨ quote = '"') {cs inside rest : List Char}
    (offset : Nat) (htake : cs.takeWhile (· ≠ quote) = inside)
    (hdrop : cs.dropWhile (· ≠ quote) = quote :: rest) :
    scan offset (quote :: cs) =
      (scan (offset + utf8Length inside + 2) rest).map (literal (String.ofList inside) :: ·) := by
  have hother : ¬ Text.isBlank quote = true ∧ quote ≠ '(' ∧ quote ≠ ')' ∧ quote ≠ ',' := by
    rcases hquote with rfl | rfl <;> decide
  obtain ⟨hblank, hopen, hclose, hcomma⟩ := hother
  rw [Token.scan, if_neg hblank, if_neg hopen, if_neg hclose, if_neg hcomma, if_pos hquote]
  split
  · next hnone =>
    rw [hdrop] at hnone
    cases hnone
  · next hsome =>
    rw [hdrop] at hsome
    cases hsome
    rw [← htake]

/-- A text between quotes of either kind. -/
theorem scans_literal {quote : Char} (hquote : quote = '\'' ∨ quote = '"') {inside : List Char}
    (h : quote ∉ inside) :
    Scans (quote :: inside ++ [quote]) [.literal (String.ofList inside)] := by
  intro rest after hrest offset
  have hrun : ∀ c ∈ inside, decide (c ≠ quote) = true := by
    intro c hc
    rw [decide_eq_true_eq]
    rintro rfl
    exact h hc
  obtain ⟨htake, hdrop⟩ := Text.takeWhile_dropWhile_run hrun quote (by simp) rest
  have hcs : quote :: inside ++ [quote] ++ rest = quote :: (inside ++ quote :: rest) := by simp
  rw [hcs, scan_quote hquote offset htake hdrop, hrest]
  rfl

theorem scan_digit {c : Char} (cs : List Char) (offset : Nat) (h : c.isDigit = true) :
    scan offset (c :: cs) =
      if digitsValue (c :: cs.takeWhile Char.isDigit) ≤ maxNumber then
        (scan (offset + (c :: cs.takeWhile Char.isDigit).length) (cs.dropWhile Char.isDigit)).map
          (number (digitsValue (c :: cs.takeWhile Char.isDigit)) :: ·)
      else .error (.numberOutOfRange (String.ofList (c :: cs.takeWhile Char.isDigit))) := by
  obtain ⟨hblank, hopen, hclose, hcomma, hquote⟩ := isWordChar_facts (isWordChar_of_isDigit h)
  rw [Token.scan, if_neg hblank, if_neg hopen, if_neg hclose, if_neg hcomma, if_neg hquote,
    if_pos h]

theorem digitsValue_eq (digits : List Char) : digitsValue digits = Nat.ofDigitChars 10 digits 0 := by
  have hstep : (fun (n : Nat) (c : Char) => n * 10 + (c.toNat - '0'.toNat)) =
      fun n c => 10 * n + (c.toNat - '0'.toNat) := by
    funext n c
    rw [Nat.mul_comm]
  rw [digitsValue, hstep]
  rfl

/-- Digits in front of a piece that starts with something else. -/
theorem Scans.number {stop : Char} {cs : List Char} {ts : List Token} (h : Scans (stop :: cs) ts)
    (hstop : stop.isDigit = false) {digits : List Char} (hne : digits ≠ [])
    (hdigits : ∀ c ∈ digits, c.isDigit = true) (hmax : digitsValue digits ≤ maxNumber) :
    Scans (digits ++ stop :: cs) (.number (digitsValue digits) :: ts) := by
  intro rest after hrest offset
  obtain ⟨c, digits, rfl⟩ := List.exists_cons_of_ne_nil hne
  obtain ⟨htake, hdrop⟩ := Text.takeWhile_dropWhile_run
    (fun d hd => hdigits d (List.mem_cons_of_mem c hd)) stop hstop (cs ++ rest)
  have hafter := h rest after hrest
  rw [List.cons_append, List.cons_append, List.append_assoc, List.cons_append,
    scan_digit _ _ (hdigits c (List.mem_cons_self ..)), htake, hdrop, if_pos hmax]
  exact congrArg (Except.map _) (hafter _)

/-- A number as it is shown, and a comma. -/
theorem scans_toDigits {n : Nat} (h : n ≤ maxNumber) :
    Scans (Nat.toDigits 10 n ++ [',']) [.number n, .comma] := by
  have hvalue : digitsValue (Nat.toDigits 10 n) = n := by
    rw [digitsValue_eq]
    exact Nat.ofDigitChars_ten_toDigits
  have hscans := scans_comma.number (by decide) Nat.toDigits_ne_nil
    (fun c hc => Nat.isDigit_of_mem_toDigits (by decide) (by decide) hc) (hvalue.symm ▸ h)
  rwa [hvalue] at hscans

/-- What a word may start with. -/
def StartsWord (c : Char) : Prop :=
  ¬ Text.isBlank c = true ∧ c ≠ '(' ∧ c ≠ ')' ∧ c ≠ ',' ∧ ¬ (c = '\'' ∨ c = '"') ∧
    ¬ c.isDigit = true ∧ isWordChar c = true

instance (c : Char) : Decidable (StartsWord c) := inferInstanceAs (Decidable (_ ∧ _))

/-- A word in front of a piece that starts with something else. -/
theorem Scans.word {stop : Char} {cs : List Char} {ts : List Token} (h : Scans (stop :: cs) ts)
    (hstop : isWordChar stop = false) (c : Char) (letters : List Char) (hc : StartsWord c)
    (hletters : letters.all isWordChar = true) :
    Scans (c :: letters ++ stop :: cs) (.word (String.ofList (c :: letters)) :: ts) := by
  intro rest after hrest offset
  obtain ⟨hblank, hopen, hclose, hcomma, hquote, hdigit, hword⟩ := hc
  obtain ⟨htake, hdrop⟩ :=
    Text.takeWhile_dropWhile_run (List.all_eq_true.1 hletters) stop hstop (cs ++ rest)
  have hafter := h rest after hrest
  rw [List.cons_append, List.cons_append, List.append_assoc, List.cons_append, Token.scan,
    if_neg hblank, if_neg hopen, if_neg hclose, if_neg hcomma, if_neg hquote, if_neg hdigit,
    if_pos hword]
  show (Token.scan _ ((letters ++ stop :: (cs ++ rest)).dropWhile isWordChar)).map
    (Token.word (String.ofList (c :: (letters ++ stop :: (cs ++ rest)).takeWhile isWordChar)) :: ·) = _
  rw [htake, hdrop]
  exact congrArg (Except.map _) (hafter _)

/-- Blanks in front of a piece. -/
theorem scans_blanks {blanks : List Char} (h : ∀ c ∈ blanks, Text.isBlank c = true) :
    Scans blanks [] := by
  intro rest after hrest
  induction blanks with
  | nil => exact hrest
  | cons c blanks ih =>
    intro offset
    rw [List.cons_append, Token.scan, if_pos (h c (List.mem_cons_self ..))]
    exact ih (fun d hd => h d (List.mem_cons_of_mem c hd)) _

end ChannelConfig.Policy.Token
