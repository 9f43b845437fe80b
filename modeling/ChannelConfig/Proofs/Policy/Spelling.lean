import ChannelConfig.Proofs.Policy.Expression
import ChannelConfig.Proofs.Policy.Grammar

/-! Scanning against the spelling of tokens. `spelled_of_scan`: what is scanned is a spelling of the
tokens, with blanks anywhere between them. The other way, `Opens.scans` and its like say of each part
of the grammar that it is scanned into the tokens that the parser expects of it. -/

set_option autoImplicit false

namespace ChannelConfig.Policy

open Token

/-! ## Spellings of tokens -/

/-- The characters that a token is read from. -/
inductive Lexeme : Token → List Char → Prop
  | word (letters : List Char) : Lexeme (.word (String.ofList letters)) letters
  | number {digits : List Char} (hne : digits ≠ []) (hdigits : ∀ c ∈ digits, c.isDigit = true)
      (hmax : digitsValue digits ≤ maxNumber) : Lexeme (.number (digitsValue digits)) digits
  | literal {quote : Char} (hquote : quote = '\'' ∨ quote = '"') (inside : List Char) :
      Lexeme (.literal (String.ofList inside)) (quote :: inside ++ [quote])
  | openParen : Lexeme .openParen ['(']
  | closeParen : Lexeme .closeParen [')']
  | comma : Lexeme .comma [',']

/-- The spellings of tokens side by side. -/
inductive Spelled : List Token → List Char → Prop
  | nil : Spelled [] []
  | cons {t : Token} {ts : List Token} {cs ds : List Char} (h : Padded (Lexeme t) cs)
      (hs : Spelled ts ds) : Spelled (t :: ts) (cs ++ ds)

theorem Padded.map {P Q : List Char → Prop} {cs : List Char} (h : Padded P cs)
    (himp : ∀ token, P token → Q token) : Padded Q cs := by
  cases h with
  | intro hblanks h => exact .intro hblanks (himp _ h)

theorem Padded.of_token {P : List Char → Prop} {token : List Char} (h : P token) :
    Padded P token :=
  @Padded.intro P [] token nofun h

theorem Padded.blank {P : List Char → Prop} {cs : List Char} (h : Padded P cs) {c : Char}
    (hc : Text.isBlank c = true) : Padded P (c :: cs) := by
  cases h with
  | @intro blanks token hblanks h =>
    exact @Padded.intro P (c :: blanks) token (List.forall_mem_cons.2 ⟨hc, hblanks⟩) h

theorem spelled_nil_iff {cs : List Char} : Spelled [] cs ↔ cs = [] := by
  constructor
  · intro h
    cases h
    rfl
  · rintro rfl
    exact .nil

theorem Spelled.append_iff {ts us : List Token} {cs : List Char} :
    Spelled (ts ++ us) cs ↔ ∃ as bs, cs = as ++ bs ∧ Spelled ts as ∧ Spelled us bs := by
  constructor
  · intro h
    induction ts generalizing cs with
    | nil => exact ⟨[], cs, rfl, .nil, h⟩
    | cons t ts ih =>
      cases h with
      | @cons _ _ cs ds h hs =>
        obtain ⟨as, bs, rfl, has, hbs⟩ := ih hs
        exact ⟨cs ++ as, bs, (List.append_assoc ..).symm, .cons h has, hbs⟩
  · rintro ⟨as, bs, rfl, has, hbs⟩
    induction has with
    | nil => exact hbs
    | cons h hs ih =>
      rw [List.append_assoc]
      exact .cons h ih

theorem Spelled.cons_iff {t : Token} {ts : List Token} {cs : List Char} :
    Spelled (t :: ts) cs ↔ ∃ as bs, cs = as ++ bs ∧ Padded (Lexeme t) as ∧ Spelled ts bs := by
  constructor
  · intro h
    cases h with
    | cons h hs => exact ⟨_, _, rfl, h, hs⟩
  · rintro ⟨as, bs, rfl, h, hs⟩
    exact .cons h hs

theorem Spelled.singleton_iff {t : Token} {cs : List Char} :
    Spelled [t] cs ↔ Padded (Lexeme t) cs := by
  rw [Spelled.cons_iff]
  constructor
  · rintro ⟨as, bs, rfl, h, hs⟩
    rw [spelled_nil_iff.1 hs, List.append_nil]
    exact h
  · intro h
    exact ⟨cs, [], (List.append_nil cs).symm, h, .nil⟩

/-! ## What is scanned -/

/-- A spelling, and blanks behind it. -/
def SpelledText (ts : List Token) (text : List Char) : Prop :=
  ∃ cs blanks, text = cs ++ blanks ∧ Spelled ts cs ∧ Blank blanks

theorem SpelledText.cons {t : Token} {ts : List Token} {token rest : List Char} (ht : Lexeme t token)
    (h : SpelledText ts rest) : SpelledText (t :: ts) (token ++ rest) := by
  obtain ⟨cs, blanks, rfl, hspelled, hblanks⟩ := h
  exact ⟨token ++ cs, blanks, (List.append_assoc ..).symm, .cons (.of_token ht) hspelled, hblanks⟩

theorem SpelledText.blank {ts : List Token} {rest : List Char} {c : Char}
    (hc : Text.isBlank c = true) (h : SpelledText ts rest) : SpelledText ts (c :: rest) := by
  obtain ⟨cs, blanks, rfl, hspelled, hblanks⟩ := h
  cases hspelled with
  | nil => exact ⟨[], c :: blanks, rfl, .nil, List.forall_mem_cons.2 ⟨hc, hblanks⟩⟩
  | cons ht hs => exact ⟨_, blanks, rfl, .cons (ht.blank hc) hs, hblanks⟩

theorem SpelledText.of_map_cons {t : Token} {ts : List Token} {token rest : List Char}
    {r : Except PolicyFault (List Token)} (ht : Lexeme t token)
    (ih : ∀ {us}, r = .ok us → SpelledText us rest) (h : r.map (t :: ·) = .ok ts) :
    SpelledText ts (token ++ rest) := by
  obtain ⟨us, hus, rfl⟩ := exists_of_map_eq_ok h
  exact (ih hus).cons ht

/-- What is scanned is a spelling of the tokens. -/
theorem spelled_of_scan {offset : Nat} {cs : List Char} {ts : List Token}
    (h : scan offset cs = .ok ts) : SpelledText ts cs := by
  fun_induction scan offset cs generalizing ts with
  | case1 =>
    cases h
    exact ⟨[], [], rfl, .nil, nofun⟩
  | case2 offset c cs hblank ih => exact (ih h).blank hblank
  | case3 offset cs hblank ih => exact .of_map_cons .openParen ih h
  | case4 offset cs hblank hopen ih => exact .of_map_cons .closeParen ih h
  | case5 offset cs hblank hopen hclose ih => exact .of_map_cons .comma ih h
  | case6 | case9 | case11 => cases h
  | case7 offset c cs hblank hopen hclose hcomma hquote inside stop rest hdrop hlt =>
    rename_i ih
    have hstop : stop = c := by
      have := List.head?_dropWhile_not (fun d => decide (d ≠ c)) cs
      rw [hdrop] at this
      simpa using this
    have htext : c :: cs = c :: inside ++ [c] ++ rest := by
      have hcs : inside ++ cs.dropWhile (· ≠ c) = cs := List.takeWhile_append_dropWhile
      rw [hdrop, hstop] at hcs
      simp [← hcs]
    rw [htext]
    exact .of_map_cons (.literal hquote inside) ih h
  | case8 offset c cs hblank hopen hclose hcomma hquote hdigit digits hlength hmax =>
    rename_i ih
    have htext : c :: cs = digits ++ cs.dropWhile Char.isDigit := by
      rw [List.cons_append, List.takeWhile_append_dropWhile]
    have hdigits : ∀ d ∈ digits, d.isDigit = true :=
      List.forall_mem_cons.2 ⟨hdigit, List.all_eq_true.1 List.all_takeWhile⟩
    rw [htext]
    exact .of_map_cons (.number (List.cons_ne_nil _ _) hdigits hmax) ih h
  | case10 offset c cs hblank hopen hclose hcomma hquote hdigit hword letters hlength =>
    rename_i ih
    have htext : c :: cs = letters ++ cs.dropWhile isWordChar := by
      rw [List.cons_append, List.takeWhile_append_dropWhile]
    rw [htext]
    exact .of_map_cons (.word letters) ih h

theorem Spelled.length_le_of_literal_mem {ts : List Token} {cs : List Char} (h : Spelled ts cs)
    {text : String} (hmem : .literal text ∈ ts) : text.length ≤ cs.length := by
  induction h with
  | nil => cases hmem
  | cons h hs ih =>
    rw [List.length_append]
    rcases List.mem_cons.1 hmem with rfl | hmem
    · cases h with
      | intro hblanks hlexeme =>
        cases hlexeme
        simp only [String.length_ofList, List.length_append, List.length_cons]
        omega
    · have := ih hmem
      omega

/-- Literals are cut from the text they are scanned from. -/
theorem length_le_of_literal_mem_scan {offset : Nat} {cs : List Char} {ts : List Token}
    (h : scan offset cs = .ok ts) {text : String} (hmem : .literal text ∈ ts) :
    text.length ≤ cs.length := by
  obtain ⟨body, blanks, rfl, hspelled, -⟩ := spelled_of_scan h
  have := hspelled.length_le_of_literal_mem hmem
  rw [List.length_append]
  omega

/-! ## From tokens to the grammar -/

/-- The keyword in lower case. -/
def Keyword.spelling : Keyword → String
  | and => "and"
  | or => "or"
  | outOf => "outof"

theorem ofWord?_eq_some_iff {word : String} {keyword : Keyword} :
    Keyword.ofWord? word = some keyword ↔ IsWord keyword.spelling word.toList := by
  rw [Keyword.ofWord?, IsWord]
  constructor
  · intro h
    split at h
    · next hlower =>
      cases h
      exact hlower
    · split at h
      · next hlower =>
        cases h
        exact hlower
      · split at h
        · next hlower =>
          cases h
          exact hlower
        · cases h
  · intro h
    rw [h]
    cases keyword <;> decide

theorem isNumber_iff {k : Nat} {cs : List Char} : IsNumber k cs ↔ Lexeme (.number k) cs := by
  constructor
  · rintro ⟨hne, hdigits, rfl, hle⟩
    rw [← digitsValue_eq] at hle ⊢
    exact .number hne hdigits hle
  · intro h
    cases h with
    | number hne hdigits hmax => exact ⟨hne, hdigits, (digitsValue_eq cs).symm, hmax⟩

theorem Lexeme.isWord {name : String} {keyword : Keyword} {cs : List Char}
    (h : Lexeme (.word name) cs) (hname : Keyword.ofWord? name = some keyword) :
    IsWord keyword.spelling cs := by
  cases h with
  | word =>
    rw [ofWord?_eq_some_iff, String.toList_ofList] at hname
    exact hname

theorem Lexeme.isLiteral {text : String} {p : Principal} {cs : List Char}
    (h : Lexeme (.literal text) cs) (hp : Expression.parsePrincipal text = .ok p) :
    IsLiteral p cs := by
  cases h with
  | literal hquote inside =>
    obtain ⟨hnamed, role, hrole, htext⟩ := Expression.parsePrincipal_eq_ok_iff.1 hp
    rw [String.toList_ofList] at htext
    rw [htext]
    exact .intro hquote hnamed hrole

theorem Lexeme.isMark {cs : List Char} :
    (Lexeme .openParen cs → IsMark '(' cs) ∧ (Lexeme .closeParen cs → IsMark ')' cs) ∧
      (Lexeme .comma cs → IsMark ',' cs) := by
  refine ⟨?_, ?_, ?_⟩ <;> (intro h; cases h; rfl)

/-- A gate's head opens the gate in the grammar. -/
theorem opens_of_spelled {k count : Nat} {head : List Token} (h : Expression.GateHead k count head)
    {cs : List Char} (hs : Spelled head cs) :
    ∃ quorum : Quorum, quorum.number count = k ∧ Opens quorum cs := by
  cases h with
  | and hname =>
    obtain ⟨word, mark, rfl, hword, hmark⟩ := Spelled.cons_iff.1 hs
    refine ⟨.all, rfl, .all (hword.map fun _ h => h.isWord hname) ?_⟩
    exact (Spelled.singleton_iff.1 hmark).map fun _ => Lexeme.isMark.1
  | or hname =>
    obtain ⟨word, mark, rfl, hword, hmark⟩ := Spelled.cons_iff.1 hs
    refine ⟨.one, rfl, .one (hword.map fun _ h => h.isWord hname) ?_⟩
    exact (Spelled.singleton_iff.1 hmark).map fun _ => Lexeme.isMark.1
  | outOf hname =>
    obtain ⟨word, rest, rfl, hword, hs⟩ := Spelled.cons_iff.1 hs
    obtain ⟨mark, rest, rfl, hmark, hs⟩ := Spelled.cons_iff.1 hs
    obtain ⟨number, comma, rfl, hnumber, hcomma⟩ := Spelled.cons_iff.1 hs
    refine ⟨.exactly k, rfl, .exactly (hword.map fun _ h => h.isWord hname) ?_ ?_ ?_⟩
    · exact hmark.map fun _ => Lexeme.isMark.1
    · exact hnumber.map fun _ => isNumber_iff.2
    · exact (Spelled.singleton_iff.1 hcomma).map fun _ => Lexeme.isMark.2.2

/-! ## From the grammar to tokens -/

theorem Padded.scans {P : List Char → Prop} {cs : List Char} {ts : List Token} (h : Padded P cs)
    (hP : ∀ token, P token → Scans token ts) : Scans cs ts := by
  cases h with
  | intro hblanks h => exact (scans_blanks hblanks).append (hP _ h)

theorem scans_mark {cs : List Char} :
    (Padded (IsMark '(') cs → Scans cs [.openParen]) ∧
      (Padded (IsMark ')') cs → Scans cs [.closeParen]) ∧
      (Padded (IsMark ',') cs → Scans cs [.comma]) := by
  refine ⟨fun h => h.scans ?_, fun h => h.scans ?_, fun h => h.scans ?_⟩
  · rintro _ rfl
    exact scans_openParen
  · rintro _ rfl
    exact scans_closeParen
  · rintro _ rfl
    exact scans_comma

/-- Words and numbers end where a mark follows them, or blanks and a mark. -/
theorem Padded.exists_stop {mark : Char} {cs : List Char} (h : Padded (IsMark mark) cs)
    (hmark : isWordChar mark = false) :
    ∃ stop rest, cs = stop :: rest ∧ isWordChar stop = false := by
  cases h with
  | @intro blanks token hblanks h =>
    obtain rfl : token = [mark] := h
    cases blanks with
    | nil => exact ⟨mark, [], rfl, hmark⟩
    | cons c blanks =>
      exact ⟨c, blanks ++ [mark], rfl, isWordChar_of_isBlank (hblanks c (List.mem_cons_self ..))⟩

theorem isAlpha_of_isAlpha_toLower {c : Char} (h : c.toLower.isAlpha = true) :
    c.isAlpha = true := by
  by_cases hupper : c.val ≥ 'A'.val ∧ c.val ≤ 'Z'.val
  · have hc : c.isUpper = true := decide_eq_true hupper
    show (c.isUpper || c.isLower) = true
    rw [hc, Bool.true_or]
  · have hlower : c.toLower = c := dif_neg hupper
    rwa [hlower] at h

theorem not_isDigit_of_isAlpha {c : Char} (h : c.isAlpha = true) : ¬ c.isDigit = true := by
  intro hdigit
  change (decide (c.val ≥ 'A'.val ∧ c.val ≤ 'Z'.val) ||
    (decide (c.val ≥ 'a'.val) && decide (c.val ≤ 'z'.val))) = true at h
  change (decide (c.val ≥ '0'.val) && decide (c.val ≤ '9'.val)) = true at hdigit
  simp only [Bool.or_eq_true, Bool.and_eq_true, decide_eq_true_eq, ge_iff_le,
    UInt32.le_iff_toNat_le] at h hdigit
  have hnine : '9'.val.toNat < 'A'.val.toNat ∧ '9'.val.toNat < 'a'.val.toNat := by decide
  omega

theorem startsWord_of_isAlpha {c : Char} (h : c.isAlpha = true) : StartsWord c := by
  have hword := isWordChar_of_isAlphanum (c := c) (by rw [Char.isAlphanum, h, Bool.true_or])
  obtain ⟨hblank, hopen, hclose, hcomma, hquote⟩ := isWordChar_facts hword
  exact ⟨hblank, hopen, hclose, hcomma, hquote, not_isDigit_of_isAlpha h, hword⟩

/-- Keywords have letters only. -/
theorem IsWord.isAlpha {keyword : Keyword} {letters : List Char}
    (h : IsWord keyword.spelling letters) : letters ≠ [] ∧ ∀ c ∈ letters, c.isAlpha = true := by
  have hspelling : keyword.spelling.toList ≠ [] ∧
      keyword.spelling.toList.all Char.isAlpha = true := by
    cases keyword <;> decide
  rw [← h] at hspelling
  refine ⟨fun hnil => hspelling.1 (List.map_eq_nil_iff.2 hnil), fun c hc => ?_⟩
  exact isAlpha_of_isAlpha_toLower (List.all_eq_true.1 hspelling.2 _ (List.mem_map_of_mem hc))

theorem scans_keyword (keyword : Keyword) {word mark : List Char}
    (hword : Padded (IsWord keyword.spelling) word) (hmark : Padded (IsMark '(') mark) :
    ∃ name, Keyword.ofWord? name = some keyword ∧
      Scans (word ++ mark) [.word name, .openParen] := by
  have hscans := scans_mark.1 hmark
  obtain ⟨stop, rest, rfl, hstop⟩ := hmark.exists_stop (by decide)
  cases hword with
  | @intro blanks letters hblanks h =>
    obtain ⟨hne, halpha⟩ := h.isAlpha
    obtain ⟨c, letters, rfl⟩ := List.exists_cons_of_ne_nil hne
    refine ⟨String.ofList (c :: letters), ?_, ?_⟩
    · rw [ofWord?_eq_some_iff, String.toList_ofList]
      exact h
    · rw [List.append_assoc]
      refine (scans_blanks hblanks).append (hscans.word hstop c letters ?_ ?_)
      · exact startsWord_of_isAlpha (halpha c (List.mem_cons_self ..))
      · refine List.all_eq_true.2 fun d hd => ?_
        exact (startsWord_of_isAlpha (halpha d (List.mem_cons_of_mem c hd))).2.2.2.2.2.2

theorem scans_number {k : Nat} {number comma : List Char} (hnumber : Padded (IsNumber k) number)
    (hcomma : Padded (IsMark ',') comma) : Scans (number ++ comma) [.number k, .comma] := by
  have hscans := scans_mark.2.2 hcomma
  obtain ⟨stop, rest, rfl, hstop⟩ := hcomma.exists_stop (by decide)
  have hdigit : stop.isDigit = false := by
    cases hd : stop.isDigit with
    | false => rfl
    | true => rw [isWordChar_of_isDigit hd] at hstop; cases hstop
  cases hnumber with
  | @intro blanks digits hblanks h =>
    rw [isNumber_iff] at h
    cases h with
    | number hne hdigits hmax =>
      rw [List.append_assoc]
      exact (scans_blanks hblanks).append (hscans.number hdigit hne hdigits hmax)

/-- Neither kind of quotes stands in an MSP id or in the name of a role. -/
theorem quote_notMem_principal {quote : Char} (hquote : quote = '\'' ∨ quote = '"') {p : Principal}
    (hid : p.Named) {role : List Char} (hrole : IsWord p.role.name role) :
    quote ∉ p.mspId.toList ++ '.' :: role := by
  intro hmem
  rcases List.mem_append.1 hmem with hmem | hmem
  · have := List.all_eq_true.1 hid.2 _ hmem
    rcases hquote with rfl | rfl <;> revert this <;> decide
  · rcases List.mem_cons.1 hmem with rfl | hmem
    · revert hquote
      decide
    · have hname := List.mem_map_of_mem (f := Char.toLower) hmem
      rw [hrole] at hname
      revert hname
      rcases hquote with rfl | rfl <;> cases p.role <;> decide

theorem scans_principal {p : Principal} {cs : List Char} (h : Padded (IsLiteral p) cs) :
    ∃ text, Expression.parsePrincipal text = .ok p ∧ Scans cs [.literal text] := by
  cases h with
  | intro hblanks h =>
    cases h with
    | @intro quote role hquote hid hrole =>
      refine ⟨String.ofList (p.mspId.toList ++ '.' :: role), ?_,
        (scans_blanks hblanks).append (scans_literal hquote ?_)⟩
      · refine Expression.parsePrincipal_eq_ok_iff.2 ⟨hid, role, hrole, ?_⟩
        rw [String.toList_ofList]
      · exact quote_notMem_principal hquote hid hrole

/-- What opens a gate in the grammar is scanned into the head of a gate. -/
theorem Opens.scans {quorum : Quorum} {cs : List Char} (h : Opens quorum cs) (count : Nat) :
    ∃ head, Scans cs head ∧ Expression.GateHead (quorum.number count) count head := by
  cases h with
  | all hword hmark =>
    obtain ⟨name, hname, hscans⟩ := scans_keyword .and hword hmark
    exact ⟨_, hscans, .and hname⟩
  | one hword hmark =>
    obtain ⟨name, hname, hscans⟩ := scans_keyword .or hword hmark
    exact ⟨_, hscans, .or hname⟩
  | exactly hword hmark hnumber hcomma =>
    obtain ⟨name, hname, hscans⟩ := scans_keyword .outOf hword hmark
    rw [← List.append_assoc]
    exact ⟨_, hscans.append (scans_number hnumber hcomma), .outOf hname⟩

end ChannelConfig.Policy
