import Mathlib.Algebra.GroupWithZero.Nat
import ChannelConfig.Duration
import ChannelConfig.Proofs.Result
import ChannelConfig.Proofs.Text

/-! Durations as sums. A number stops where the unit starts and a unit stops where the next number
starts, so a text of components is read component by component (`sumComponents_eq_ok_iff`). What
texts mean together is the sum of what they mean. -/

set_option autoImplicit false

namespace ChannelConfig.Duration

/-! ## Numbers -/

/-- Digits, with at most one point among them and not without a digit. -/
structure IsNumber (cs : List Char) : Prop where
  chars : ∀ c ∈ cs, c.isDigit = true ∨ c = '.'
  point : cs.count '.' ≤ 1
  digit : ∃ c ∈ cs, c.isDigit = true

theorem count_point_of_digits {cs : List Char} (h : ∀ c ∈ cs, c.isDigit = true) :
    cs.count '.' = 0 := by
  rw [List.count_eq_zero]
  intro hmem
  cases h '.' hmem

theorem digits_of_count_point {cs : List Char} (h : ∀ c ∈ cs, c.isDigit = true ∨ c = '.')
    (hcount : cs.count '.' = 0) : ∀ c ∈ cs, c.isDigit = true := by
  intro c hc
  rcases h c hc with hdigit | rfl
  · exact hdigit
  · exact absurd hc (List.count_eq_zero.1 hcount)

/-- Digits, and then the point or a character that ends the number too early. -/
theorem isNumber_append_cons_iff {whole decimals : List Char} {point : Char}
    (hwhole : ∀ c ∈ whole, c.isDigit = true) (hpoint : point.isDigit = false) :
    IsNumber (whole ++ point :: decimals) ↔
      point = '.' ∧ (∀ c ∈ decimals, c.isDigit = true) ∧ ¬ (whole = [] ∧ decimals = []) := by
  constructor
  · intro h
    have hpoint' : point = '.' := by
      rcases h.chars point (by simp) with hdigit | hdot
      · rw [hpoint] at hdigit
        cases hdigit
      · exact hdot
    subst hpoint'
    have hchars : ∀ c ∈ decimals, c.isDigit = true ∨ c = '.' := fun c hc =>
      h.chars c (List.mem_append_right _ (List.mem_cons_of_mem _ hc))
    have hcount := h.point
    rw [List.count_append, List.count_cons_self, count_point_of_digits hwhole] at hcount
    refine ⟨rfl, digits_of_count_point hchars (by omega), ?_⟩
    rintro ⟨rfl, rfl⟩
    obtain ⟨c, hc, hdigit⟩ := h.digit
    cases List.mem_singleton.1 hc
    cases hdigit
  · rintro ⟨rfl, hdecimals, hdigit⟩
    refine ⟨fun c hc => ?_, ?_, ?_⟩
    · rw [List.mem_append, List.mem_cons] at hc
      rcases hc with hc | rfl | hc
      · exact .inl (hwhole c hc)
      · exact .inr rfl
      · exact .inl (hdecimals c hc)
    · have hone : (whole ++ '.' :: decimals).count '.' = 0 + (0 + 1) := by
        rw [List.count_append, List.count_cons_self, count_point_of_digits hwhole,
          count_point_of_digits hdecimals]
      omega
    · cases whole with
      | cons c whole => exact ⟨c, List.mem_cons_self .., hwhole c (List.mem_cons_self ..)⟩
      | nil =>
        obtain ⟨c, decimals, rfl⟩ := List.exists_cons_of_ne_nil fun h => hdigit ⟨rfl, h⟩
        exact ⟨c, by simp, hdecimals c (List.mem_cons_self ..)⟩

theorem isNumber_digits_iff {cs : List Char} (h : ∀ c ∈ cs, c.isDigit = true) :
    IsNumber cs ↔ cs ≠ [] := by
  constructor
  · rintro hnumber rfl
    obtain ⟨c, hc, -⟩ := hnumber.digit
    cases hc
  · intro hne
    obtain ⟨c, rest, rfl⟩ := List.exists_cons_of_ne_nil hne
    have hcount := count_point_of_digits h
    exact ⟨fun d hd => .inl (h d hd), by omega, c, List.mem_cons_self .., h c (List.mem_cons_self ..)⟩

/-- What stands for a fraction are the numbers. -/
theorem exists_fraction_iff (cs : List Char) : (∃ q, fraction? cs = some q) ↔ IsNumber cs := by
  have hsplit := List.takeWhile_append_dropWhile (p := Char.isDigit) (l := cs)
  have hwhole : ∀ c ∈ cs.takeWhile Char.isDigit, c.isDigit = true :=
    List.all_eq_true.1 List.all_takeWhile
  have hstop := List.head?_dropWhile_not Char.isDigit cs
  simp only [fraction?]
  generalize cs.takeWhile Char.isDigit = whole at *
  cases htail : cs.dropWhile Char.isDigit with
  | nil =>
    rw [htail, List.append_nil] at hsplit
    rw [← hsplit, isNumber_digits_iff hwhole]
    cases whole <;> simp
  | cons point decimals =>
    rw [htail] at hsplit hstop
    have hcondition : (decide (point = '.') && decimals.all Char.isDigit &&
        !(whole.isEmpty && decimals.isEmpty)) = true ↔
        point = '.' ∧ (∀ c ∈ decimals, c.isDigit = true) ∧ ¬ (whole = [] ∧ decimals = []) := by
      rw [Bool.and_eq_true, Bool.and_eq_true, Bool.not_eq_true', ← Bool.not_eq_true,
        Bool.and_eq_true, List.isEmpty_iff, List.isEmpty_iff, decide_eq_true_eq,
        List.all_eq_true, and_assoc]
    rw [← hsplit, isNumber_append_cons_iff hwhole hstop, ← hcondition]
    constructor
    · rintro ⟨q, hq⟩
      by_cases h : (decide (point = '.') && decimals.all Char.isDigit &&
        !(whole.isEmpty && decimals.isEmpty)) = true
      · exact h
      · cases (if_neg h).symm.trans hq
    · intro h
      exact ⟨_, if_pos h⟩

/-! ## Components -/

theorem isNumberChar_iff {c : Char} : isNumberChar c = true ↔ c.isDigit = true ∨ c = '.' := by
  rw [isNumberChar, Bool.or_eq_true, decide_eq_true_eq]

theorem IsNumber.isNumberChar {number : List Char} (h : IsNumber number) :
    ∀ c ∈ number, isNumberChar c = true :=
  fun c hc => isNumberChar_iff.2 (h.chars c hc)

theorem IsNumber.ne_nil {number : List Char} (h : IsNumber number) : number ≠ [] := by
  rintro rfl
  obtain ⟨c, hc, -⟩ := h.digit
  cases hc

theorem IsNumber.ne_point {number : List Char} (h : IsNumber number) : number ≠ ['.'] := by
  rintro rfl
  obtain ⟨c, hc, hdigit⟩ := h.digit
  cases List.mem_singleton.1 hc
  cases hdigit

/-- A number and a unit, and how many nanoseconds they are. -/
inductive Measures : List Char → Nat → Prop where
  | component {number : List Char} {unit : String} {num den nanoseconds : Nat}
      (hnumber : fraction? number = some (num, den))
      (hunit : units.lookup unit = some nanoseconds) :
      Measures (number ++ unit.toList) (component num den nanoseconds)

/-- A number and the name of a unit. -/
def IsComponent (part : List Char) : Prop :=
  ∃ number unit, IsNumber number ∧ unit ∈ ["ns", "us", "µs", "ms", "s", "m", "h"] ∧
    part = number ++ unit.toList

theorem mem_unit_names_iff {unit : String} :
    unit ∈ ["ns", "us", "µs", "ms", "s", "m", "h"] ↔ ∃ ns, units.lookup unit = some ns := by
  constructor
  · intro h
    simp only [List.mem_cons, List.not_mem_nil, or_false] at h
    rcases h with rfl | rfl | rfl | rfl | rfl | rfl | rfl <;> exact ⟨_, rfl⟩
  · rintro ⟨ns, h⟩
    obtain ⟨before, after, hunits, -⟩ := List.lookup_eq_some_iff.1 h
    have hmem : unit ∈ units.map (·.1) := by
      rw [hunits, List.map_append, List.map_cons]
      exact List.mem_append_right _ (List.mem_cons_self ..)
    exact hmem

/-- The name of a unit starts where the number ends, and ends where the next number starts. -/
theorem unit_chars {unit : String} {ns : Nat} (h : units.lookup unit = some ns) :
    unit.toList ≠ [] ∧ ∀ c ∈ unit.toList, isNumberChar c = false := by
  have hmem := mem_unit_names_iff.2 ⟨ns, h⟩
  simp only [List.mem_cons, List.not_mem_nil, or_false] at hmem
  have hchars : unit.toList ≠ [] ∧ unit.toList.all (fun c => !isNumberChar c) = true := by
    rcases hmem with rfl | rfl | rfl | rfl | rfl | rfl | rfl <;> decide
  refine ⟨hchars.1, fun c hc => ?_⟩
  simpa using List.all_eq_true.1 hchars.2 c hc

theorem isComponent_iff {part : List Char} : IsComponent part ↔ ∃ ns, Measures part ns := by
  constructor
  · rintro ⟨number, unit, hnumber, hunit, rfl⟩
    obtain ⟨⟨num, den⟩, hfraction⟩ := (exists_fraction_iff number).2 hnumber
    obtain ⟨ns, hns⟩ := mem_unit_names_iff.1 hunit
    exact ⟨_, .component hfraction hns⟩
  · rintro ⟨_, @⟨number, unit, num, den, ns, hfraction, hns⟩⟩
    exact ⟨number, unit, (exists_fraction_iff number).1 ⟨_, hfraction⟩,
      mem_unit_names_iff.2 ⟨ns, hns⟩, rfl⟩

/-! ## One component -/

/-- What follows a component: nothing, or the number of the next one. -/
def StartsNumber (rest : List Char) : Prop :=
  ∀ c, rest.head? = some c → isNumberChar c = true

/-- The nanoseconds of the first component, and the text that follows it. -/
def takeComponent (text : List Char) : Except DurationFault (Nat × List Char) :=
  let number := text.takeWhile isNumberChar
  if number = [] ∨ number = ['.'] then .error (.expectedNumber (String.ofList text))
  else
    let tail := text.dropWhile isNumberChar
    let unit := tail.takeWhile fun c => !isNumberChar c
    if unit.isEmpty then .error (.missingUnit (String.ofList number))
    else
      match units.lookup (String.ofList unit) with
      | none => .error (.unknownUnit (String.ofList unit))
      | some nanoseconds =>
        match fraction? number with
        | none => .error (.badNumber (String.ofList number))
        | some (num, den) =>
          .ok (component num den nanoseconds, tail.dropWhile fun c => !isNumberChar c)

theorem sumComponents_nil : sumComponents [] = .ok 0 := by
  rw [sumComponents]

theorem sumComponents_cons (c : Char) (cs : List Char) :
    sumComponents (c :: cs) =
      takeComponent (c :: cs) >>= fun first => (sumComponents first.2).map (first.1 + ·) := by
  rw [sumComponents, takeComponent]
  split
  · rfl
  · dsimp only
    split
    · rfl
    · cases units.lookup _ with
      | none => rfl
      | some nanoseconds =>
        cases fraction? _ with
        | none => rfl
        | some q => rfl

theorem startsNumber_dropWhile (text : List Char) :
    StartsNumber (text.dropWhile fun c => !isNumberChar c) := by
  intro c hc
  have hstop := List.head?_dropWhile_not (fun c => !isNumberChar c) text
  rw [hc] at hstop
  simpa using hstop

theorem takeComponent_append {part rest : List Char} {ns : Nat} (h : Measures part ns)
    (hrest : StartsNumber rest) : takeComponent (part ++ rest) = .ok (ns, rest) := by
  obtain @⟨number, unit, num, den, nanoseconds, hfraction, hunit⟩ := h
  have hnumber := (exists_fraction_iff number).1 ⟨_, hfraction⟩
  obtain ⟨hne, hunitChars⟩ := unit_chars hunit
  have hunitHead : ∀ c, (unit.toList ++ rest).head? = some c → isNumberChar c = false := by
    intro c hc
    obtain ⟨first, others, hfirst⟩ := List.exists_cons_of_ne_nil hne
    rw [hfirst] at hc
    cases hc
    exact hunitChars _ (hfirst ▸ List.mem_cons_self ..)
  obtain ⟨htakeNumber, hdropNumber⟩ :=
    Text.takeWhile_dropWhile_append hnumber.isNumberChar hunitHead
  have hunitRun : ∀ c ∈ unit.toList, (!isNumberChar c) = true := by
    intro c hc
    rw [hunitChars c hc]
    rfl
  have hrestHead : ∀ c, rest.head? = some c → (!isNumberChar c) = false := by
    intro c hc
    rw [hrest c hc]
    rfl
  obtain ⟨htakeUnit, hdropUnit⟩ := Text.takeWhile_dropWhile_append hunitRun hrestHead
  rw [List.append_assoc, takeComponent, htakeNumber, hdropNumber,
    if_neg (not_or.2 ⟨hnumber.ne_nil, hnumber.ne_point⟩)]
  dsimp only
  rw [htakeUnit, hdropUnit, if_neg (mt List.isEmpty_iff.1 hne), String.ofList_toList, hunit,
    hfraction]

/-- A round takes one component off the text, up to the number of the next one. -/
theorem exists_part_of_takeComponent {text rest : List Char} {ns : Nat}
    (h : takeComponent text = .ok (ns, rest)) :
    ∃ part, Measures part ns ∧ StartsNumber rest ∧ text = part ++ rest := by
  rw [takeComponent] at h
  dsimp only at h
  split at h
  · cases h
  · split at h
    · cases h
    · cases hunit : units.lookup (String.ofList ((text.dropWhile isNumberChar).takeWhile
        fun c => !isNumberChar c)) with
      | none =>
        rw [hunit] at h
        cases h
      | some nanoseconds =>
        cases hfraction : fraction? (text.takeWhile isNumberChar) with
        | none =>
          rw [hunit, hfraction] at h
          cases h
        | some q =>
          obtain ⟨num, den⟩ := q
          rw [hunit, hfraction] at h
          cases h
          refine ⟨_, .component hfraction hunit, startsNumber_dropWhile _, ?_⟩
          rw [String.toList_ofList, List.append_assoc, List.takeWhile_append_dropWhile,
            List.takeWhile_append_dropWhile]

theorem Measures.startsNumber_append {part : List Char} {ns : Nat} (h : Measures part ns)
    (rest : List Char) : StartsNumber (part ++ rest) := by
  obtain ⟨hfraction, -⟩ := h
  have hnumber := (exists_fraction_iff _).1 ⟨_, hfraction⟩
  obtain ⟨first, others, rfl⟩ := List.exists_cons_of_ne_nil hnumber.ne_nil
  intro c hc
  cases hc
  exact hnumber.isNumberChar _ (List.mem_cons_self ..)

theorem Measures.two_le_length {part : List Char} {ns : Nat} (h : Measures part ns) :
    2 ≤ part.length := by
  obtain ⟨hfraction, hunit⟩ := h
  have hnumber := List.length_pos_iff.2 ((exists_fraction_iff _).1 ⟨_, hfraction⟩).ne_nil
  have hname := List.length_pos_iff.2 (unit_chars hunit).1
  rw [List.length_append]
  omega

theorem Measures.ne_nil {part : List Char} {ns : Nat} (h : Measures part ns) : part ≠ [] :=
  List.length_pos_iff.1 (Nat.lt_of_lt_of_le Nat.zero_lt_two h.two_le_length)

/-! ## Sums of components -/

theorem startsNumber_flatten {parts : List (List Char × Nat)}
    (h : ∀ part ∈ parts, Measures part.1 part.2) : StartsNumber (parts.map (·.1)).flatten := by
  cases parts with
  | nil => exact fun c hc => nomatch hc
  | cons part parts =>
    rw [List.map_cons, List.flatten_cons]
    exact (h part (List.mem_cons_self ..)).startsNumber_append _

theorem sumComponents_flatten {parts : List (List Char × Nat)}
    (h : ∀ part ∈ parts, Measures part.1 part.2) :
    sumComponents (parts.map (·.1)).flatten = .ok (parts.map (·.2)).sum := by
  induction parts with
  | nil => exact sumComponents_nil
  | cons part parts ih =>
    obtain ⟨hpart, hparts⟩ := List.forall_mem_cons.1 h
    have hfirst := takeComponent_append hpart (startsNumber_flatten hparts)
    rw [List.map_cons, List.flatten_cons, List.map_cons, List.sum_cons]
    obtain ⟨c, cs, htext⟩ :=
      List.exists_cons_of_ne_nil (List.append_ne_nil_of_left_ne_nil hpart.ne_nil
        (parts.map (·.1)).flatten)
    rw [htext, sumComponents_cons, ← htext, hfirst]
    show (sumComponents (parts.map (·.1)).flatten).map _ = _
    rw [ih hparts]
    rfl

theorem exists_parts_of_sumComponents {text : List Char} {total : Nat}
    (h : sumComponents text = .ok total) :
    ∃ parts : List (List Char × Nat), (∀ part ∈ parts, Measures part.1 part.2) ∧
      text = (parts.map (·.1)).flatten ∧ total = (parts.map (·.2)).sum := by
  induction hn : text.length using Nat.strongRecOn generalizing text total with
  | ind n ih =>
    cases text with
    | nil =>
      rw [sumComponents_nil] at h
      cases h
      exact ⟨[], fun _ hmem => (List.not_mem_nil hmem).elim, rfl, rfl⟩
    | cons c cs =>
      rw [sumComponents_cons] at h
      obtain ⟨⟨ns, rest⟩, hfirst, h⟩ := exists_of_bind_eq_ok h
      obtain ⟨others, hothers, rfl⟩ := exists_of_map_eq_ok h
      obtain ⟨part, hpart, -, htext⟩ := exists_part_of_takeComponent hfirst
      have hlen := congrArg List.length htext
      rw [List.length_append] at hlen
      have hpos := hpart.two_le_length
      obtain ⟨parts, hparts, rfl, rfl⟩ := ih rest.length (by omega) hothers rfl
      exact ⟨(part, ns) :: parts, List.forall_mem_cons.2 ⟨hpart, hparts⟩, htext, rfl⟩

/-- A text has a sum when it consists of components, and that is the sum of what they measure. -/
theorem sumComponents_eq_ok_iff {text : List Char} {total : Nat} :
    sumComponents text = .ok total ↔
      ∃ parts : List (List Char × Nat), (∀ part ∈ parts, Measures part.1 part.2) ∧
        text = (parts.map (·.1)).flatten ∧ total = (parts.map (·.2)).sum := by
  constructor
  · exact exists_parts_of_sumComponents
  · rintro ⟨parts, hparts, rfl, rfl⟩
    exact sumComponents_flatten hparts

/-- Components next to how many nanoseconds they are. -/
theorem exists_measured {parts : List (List Char)} (h : ∀ part ∈ parts, IsComponent part) :
    ∃ measured : List Char → Nat, ∀ part ∈ parts, Measures part (measured part) :=
  Classical.axiomOfChoice (r := fun part ns => part ∈ parts → Measures part ns) fun part => by
    by_cases hmem : part ∈ parts
    · obtain ⟨ns, hns⟩ := isComponent_iff.1 (h part hmem)
      exact ⟨ns, fun _ => hns⟩
    · exact ⟨0, fun hpart => absurd hpart hmem⟩

theorem map_fst_measured (parts : List (List Char)) (measured : List Char → Nat) :
    (parts.map fun part => (part, measured part)).map (·.1) = parts := by
  rw [List.map_map]
  exact List.map_id parts

theorem map_snd_measured (parts : List (List Char)) (measured : List Char → Nat) :
    (parts.map fun part => (part, measured part)).map (·.2) = parts.map measured :=
  List.map_map

theorem sumComponents_of_measured {parts : List (List Char)} {measured : List Char → Nat}
    (h : ∀ part ∈ parts, Measures part (measured part)) :
    sumComponents parts.flatten = .ok (parts.map measured).sum := by
  have hpairs : ∀ pair ∈ parts.map fun part => (part, measured part), Measures pair.1 pair.2 :=
    List.forall_mem_map.2 h
  have hsum := sumComponents_flatten hpairs
  rwa [map_fst_measured, map_snd_measured] at hsum

/-! ## Rounds -/

/-- The sum, by a loop that takes a component off the text in each round and has only so many of
them. -/
def sumWithin : Nat → Nat → List Char → Option (Except DurationFault Nat)
  | _, total, [] => some (.ok total)
  | 0, _, _ :: _ => none
  | rounds + 1, total, c :: cs =>
    match takeComponent (c :: cs) with
    | .error fault => some (.error fault)
    | .ok (ns, rest) => sumWithin rounds (total + ns) rest

/-- No text outlasts as many rounds as it has characters. -/
theorem sumWithin_eq {rounds : Nat} {text : List Char} (h : text.length ≤ rounds) (total : Nat) :
    sumWithin rounds total text = some ((sumComponents text).map (total + ·)) := by
  induction rounds generalizing text total with
  | zero =>
    rw [List.length_eq_zero_iff.1 (Nat.le_zero.1 h), sumComponents_nil]
    rfl
  | succ rounds ih =>
    cases text with
    | nil =>
      rw [sumComponents_nil]
      rfl
    | cons c cs =>
      rw [sumWithin, sumComponents_cons]
      cases hfirst : takeComponent (c :: cs) with
      | error fault => rfl
      | ok first =>
        obtain ⟨ns, rest⟩ := first
        obtain ⟨part, hpart, -, htext⟩ := exists_part_of_takeComponent hfirst
        have hlen := congrArg List.length htext
        rw [List.length_append] at hlen
        have hpos := hpart.two_le_length
        show sumWithin rounds (total + ns) rest =
          some (((sumComponents rest).map (ns + ·)).map (total + ·))
        rw [ih (by omega)]
        cases sumComponents rest with
        | error fault => rfl
        | ok others => exact congrArg (some ∘ Except.ok) (Nat.add_assoc total ns others)

/-! ## Bounds -/

theorem component_le (num den unit : Nat) : component num den unit ≤ UInt64.size - 1 := by
  rw [component]
  cases (Binary64.nearest num den).scale unit with
  | finite mantissa exponent => exact Nat.min_le_left _ _
  | infinite => exact Nat.le_refl _

theorem Measures.le {part : List Char} {ns : Nat} (h : Measures part ns) :
    ns ≤ UInt64.size - 1 := by
  cases h
  exact component_le _ _ _

/-- A component is two characters at least, and no more than 64 bits of nanoseconds. -/
theorem sum_le_of_measures {parts : List (List Char × Nat)}
    (h : ∀ part ∈ parts, Measures part.1 part.2) :
    2 * (parts.map (·.2)).sum ≤ (parts.map (·.1)).flatten.length * (UInt64.size - 1) := by
  induction parts with
  | nil => exact Nat.le_refl 0
  | cons part parts ih =>
    obtain ⟨hpart, hparts⟩ := List.forall_mem_cons.1 h
    have hothers := ih hparts
    have hone : 2 * part.2 ≤ part.1.length * (UInt64.size - 1) :=
      Nat.mul_le_mul hpart.two_le_length hpart.le
    rw [List.map_cons, List.sum_cons, List.map_cons, List.flatten_cons, List.length_append,
      Nat.add_mul, Nat.mul_add]
    exact Nat.add_le_add hone hothers

/-! ## Texts -/

theorem parse_of_ne_empty {text : String} (h : text ≠ "") :
    parse text = (sumComponents text.toList).map Duration.mk := by
  rw [parse, if_neg (mt String.isEmpty_iff.1 h)]

theorem parse_eq_ok_iff {text : String} {d : Duration} :
    parse text = .ok d ↔ text ≠ "" ∧ sumComponents text.toList = .ok d.nanoseconds := by
  constructor
  · intro h
    have hne : text ≠ "" := by
      rintro rfl
      cases h
    rw [parse_of_ne_empty hne] at h
    obtain ⟨total, htotal, rfl⟩ := exists_of_map_eq_ok h
    exact ⟨hne, htotal⟩
  · rintro ⟨hne, htotal⟩
    rw [parse_of_ne_empty hne, htotal]
    rfl

/-- A text with a duration consists of components, and lasts as long as they do together. -/
theorem parse_eq_ok_iff_parts {text : String} {d : Duration} :
    parse text = .ok d ↔
      ∃ parts : List (List Char × Nat), parts ≠ [] ∧ (∀ part ∈ parts, Measures part.1 part.2) ∧
        text.toList = (parts.map (·.1)).flatten ∧ d.nanoseconds = (parts.map (·.2)).sum := by
  rw [parse_eq_ok_iff, sumComponents_eq_ok_iff]
  constructor
  · rintro ⟨hne, parts, hparts, htext, hsum⟩
    refine ⟨parts, ?_, hparts, htext, hsum⟩
    rintro rfl
    exact hne (String.toList_eq_nil_iff.1 htext)
  · rintro ⟨parts, hne, hparts, htext, hsum⟩
    refine ⟨?_, parts, hparts, htext, hsum⟩
    rintro rfl
    obtain ⟨part, others, rfl⟩ := List.exists_cons_of_ne_nil hne
    rw [List.map_cons, List.flatten_cons, eq_comm] at htext
    exact (hparts part (List.mem_cons_self ..)).ne_nil (List.append_eq_nil_iff.1 htext).1

theorem exists_parse_iff (text : String) :
    (∃ d, parse text = .ok d) ↔
      ∃ parts : List (List Char), parts ≠ [] ∧ (∀ part ∈ parts, IsComponent part) ∧
        text.toList = parts.flatten := by
  constructor
  · rintro ⟨d, h⟩
    obtain ⟨parts, hne, hparts, htext, -⟩ := parse_eq_ok_iff_parts.1 h
    refine ⟨parts.map (·.1), mt List.map_eq_nil_iff.1 hne, ?_, htext⟩
    exact List.forall_mem_map.2 fun part hpart => isComponent_iff.2 ⟨_, hparts part hpart⟩
  · rintro ⟨parts, hne, hparts, htext⟩
    obtain ⟨measured, hmeasured⟩ := exists_measured hparts
    refine ⟨⟨_⟩, parse_eq_ok_iff_parts.2
      ⟨parts.map fun part => (part, measured part), mt List.map_eq_nil_iff.1 hne,
        List.forall_mem_map.2 hmeasured, ?_, rfl⟩⟩
    rw [map_fst_measured, htext]

theorem parse_append {a b : String} {d e : Duration} (ha : parse a = .ok d)
    (hb : parse b = .ok e) : parse (a ++ b) = .ok ⟨d.nanoseconds + e.nanoseconds⟩ := by
  obtain ⟨first, hne, hfirst, hatext, hasum⟩ := parse_eq_ok_iff_parts.1 ha
  obtain ⟨second, -, hsecond, hbtext, hbsum⟩ := parse_eq_ok_iff_parts.1 hb
  refine parse_eq_ok_iff_parts.2 ⟨first ++ second, ?_, ?_, ?_, ?_⟩
  · exact fun h => hne (List.append_eq_nil_iff.1 h).1
  · exact List.forall_mem_append.2 ⟨hfirst, hsecond⟩
  · rw [String.toList_append, hatext, hbtext, List.map_append, List.flatten_append]
  · rw [List.map_append, List.sum_append_nat, hasum, hbsum]

/-- The order of the components is without effect. -/
theorem parse_of_perm {parts parts' : List (List Char)} (h : ∀ part ∈ parts, IsComponent part)
    (hperm : parts.Perm parts') :
    parse (String.ofList parts.flatten) = parse (String.ofList parts'.flatten) := by
  obtain ⟨measured, hmeasured⟩ := exists_measured h
  have hmeasured' : ∀ part ∈ parts', Measures part (measured part) :=
    fun part hpart => hmeasured part (hperm.mem_iff.2 hpart)
  have hsame : sumComponents parts.flatten = sumComponents parts'.flatten := by
    rw [sumComponents_of_measured hmeasured, sumComponents_of_measured hmeasured',
      (hperm.map measured).sum_nat]
  have hempty : String.ofList parts.flatten = "" ↔ String.ofList parts'.flatten = "" := by
    rw [String.ofList_eq_empty_iff, String.ofList_eq_empty_iff, ← List.length_eq_zero_iff,
      ← List.length_eq_zero_iff, hperm.flatten.length_eq]
  by_cases hnil : String.ofList parts.flatten = ""
  · rw [hnil, hempty.1 hnil]
  · rw [parse_of_ne_empty hnil, parse_of_ne_empty (mt hempty.2 hnil), String.toList_ofList,
      String.toList_ofList, hsame]

/-- What is written in two thousand million characters fits 64 bits of seconds. -/
theorem seconds_lt_of_parse {text : String} {d : Duration} (hlen : text.length ≤ 2000000000)
    (h : parse text = .ok d) : d.seconds < UInt64.size := by
  obtain ⟨parts, -, hparts, htext, hsum⟩ := parse_eq_ok_iff_parts.1 h
  have hbound := sum_le_of_measures hparts
  rw [← htext, String.length_toList, ← hsum] at hbound
  have hsize : text.length * (UInt64.size - 1) ≤ 2000000000 * (UInt64.size - 1) :=
    Nat.mul_le_mul_right _ hlen
  have hpos : 0 < UInt64.size := by decide
  rw [seconds, Nat.div_lt_iff_lt_mul (by decide)]
  omega

/-- A text has a duration when it is one component or more, each a number and a unit, and lasts as
long as its components together; the loop over them ends within as many rounds as the text has
characters. So texts that follow one another last as long as each of them in turn, components may
change places, and two thousand million characters are too few for more than 64 bits of seconds. -/
theorem parse_sums_components :
    (∀ text, (∃ d, parse text = .ok d) ↔
      ∃ parts : List (List Char), parts ≠ [] ∧ (∀ part ∈ parts, IsComponent part) ∧
        text.toList = parts.flatten) ∧
    (∀ text d, parse text = .ok d ↔
      ∃ parts : List (List Char × Nat), parts ≠ [] ∧ (∀ part ∈ parts, Measures part.1 part.2) ∧
        text.toList = (parts.map (·.1)).flatten ∧ d.nanoseconds = (parts.map (·.2)).sum) ∧
    (∀ text, text ≠ "" → ∃ answer, sumWithin text.length 0 text.toList = some answer ∧
      parse text = answer.map Duration.mk) ∧
    (∀ a b d e, parse a = .ok d → parse b = .ok e →
      parse (a ++ b) = .ok ⟨d.nanoseconds + e.nanoseconds⟩) ∧
    (∀ parts parts' : List (List Char), (∀ part ∈ parts, IsComponent part) → parts.Perm parts' →
      parse (String.ofList parts.flatten) = parse (String.ofList parts'.flatten)) ∧
    (∀ text d, text.length ≤ 2000000000 → parse text = .ok d → d.seconds < UInt64.size) := by
  refine ⟨exists_parse_iff, fun text d => parse_eq_ok_iff_parts, ?_,
    fun a b d e => parse_append, fun parts parts' => parse_of_perm,
    fun text d => seconds_lt_of_parse⟩
  intro text hne
  have hlen : text.toList.length ≤ text.length := Nat.le_of_eq String.length_toList
  refine ⟨_, sumWithin_eq hlen 0, ?_⟩
  rw [parse_of_ne_empty hne]
  cases sumComponents text.toList with
  | error fault => rfl
  | ok total => exact congrArg (Except.ok ∘ Duration.mk) (Nat.zero_add total).symm

theorem parse_sums_components_minuteAndHalfSecond :
    parse "1m" = .ok ⟨60000000000⟩ ∧ parse ".5s" = .ok ⟨500000000⟩ ∧
      parse ("1m" ++ ".5s") = .ok ⟨60000000000 + 500000000⟩ ∧
      parse (String.ofList ["1m".toList, ".5s".toList].flatten) =
        parse (String.ofList [".5s".toList, "1m".toList].flatten) ∧
      Duration.seconds ⟨60000000000 + 500000000⟩ < UInt64.size := by
  obtain ⟨-, hparts, -, happend, hperm, hseconds⟩ := parse_sums_components
  have hminute : Measures "1m".toList 60000000000 :=
    @Measures.component "1".toList "m" 1 1 60000000000 rfl rfl
  have hhalf : Measures ".5s".toList 500000000 :=
    @Measures.component ".5".toList "s" 5 10 1000000000 rfl rfl
  have ha : parse "1m" = .ok ⟨60000000000⟩ :=
    (hparts _ _).2 ⟨[(_, _)], List.cons_ne_nil _ _, List.forall_mem_singleton.2 hminute, rfl, rfl⟩
  have hb : parse ".5s" = .ok ⟨500000000⟩ :=
    (hparts _ _).2 ⟨[(_, _)], List.cons_ne_nil _ _, List.forall_mem_singleton.2 hhalf, rfl, rfl⟩
  have hab := happend _ _ _ _ ha hb
  refine ⟨ha, hb, hab, hperm _ _ ?_ (.swap ..), hseconds _ _ (by decide) hab⟩
  rw [List.forall_mem_cons, List.forall_mem_singleton, isComponent_iff, isComponent_iff]
  exact ⟨⟨_, hminute⟩, ⟨_, hhalf⟩⟩

end ChannelConfig.Duration
