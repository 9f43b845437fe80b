import ChannelConfig.Policy.Render
import ChannelConfig.Proofs.Policy.Build

/-! Policies as texts and back. `Proper.scans`: the text of a proper rule is scanned into the tokens
of its expression, so that scanning, parsing and building, each inverse to its part of showing,
bring the rule back. -/

set_option autoImplicit false

namespace ChannelConfig

open Policy

namespace SignaturePolicy

/-! ## Texts of gates -/

theorem gateHead_eq {n : Int32} {k : Nat} (hk : n.toInt = k) (count : Nat) :
    gateHead n count =
      if k = count then "AND(" else if k = 1 then "OR(" else "OutOf(" ++ Nat.repr k ++ "," := by
  have hone : n = 1 ↔ k = 1 := by
    rw [← Int32.toInt_inj, hk]
    exact Int.ofNat_inj
  have hshown : toString n = Nat.repr k := by
    show toString n.toInt = _
    rw [hk]
    rfl
  rw [gateHead, hk, hshown]
  simp only [Int.ofNat_inj, hone]
  rfl

theorem scans_gateHead {n : Int32} (hpos : 0 ≤ n.toInt) (count : Nat) :
    Token.Scans (gateHead n count).toList (Expression.headTokens n.toInt.toNat count) := by
  obtain ⟨k, hk⟩ := Int.eq_ofNat_of_zero_le hpos
  have hnat : n.toInt.toNat = k := by rw [hk, Int.toNat_natCast]
  rw [gateHead_eq hk, Expression.headTokens, hnat]
  split
  · exact Token.scans_openParen.word (by decide) 'A' ['N', 'D'] (by decide) (by decide)
  · split
    · exact Token.scans_openParen.word (by decide) 'O' ['R'] (by decide) (by decide)
    · have hmax : k ≤ Token.maxNumber := by
        have := n.toInt_lt
        simp only [Token.maxNumber]
        omega
      have hword : Token.Scans "OutOf(".toList [.word "OutOf", .openParen] :=
        Token.scans_openParen.word (by decide) 'O' ['u', 't', 'O', 'f'] (by decide) (by decide)
      rw [String.toList_append, String.toList_append, Nat.toList_repr, List.append_assoc]
      exact hword.append (Token.scans_toDigits hmax)

theorem toList_intercalate_comma (first : String) (texts : List String) :
    (",".intercalate (first :: texts)).toList =
      first.toList ++ texts.flatMap fun text => ',' :: text.toList := by
  induction texts generalizing first with
  | nil => simp
  | cons second texts ih =>
    rw [String.intercalate_cons_cons, String.toList_append, String.toList_append, ih,
      List.flatMap_cons, List.append_assoc]
    rfl

/-! ## Texts of rules -/

variable {ps : List Principal}

theorem renderRule_signedBy {depth : Nat} {i : Int32} {p : Principal} (hpos : 0 ≤ i.toInt)
    (hat : ps[i.toInt.toNat]? = some p) :
    renderRule ps depth (.signedBy i) = .ok ("'" ++ p.text ++ "'") := by
  have hneg : ¬ i < 0 := by
    rw [Int32.lt_iff_toInt_lt]
    exact Int.not_lt.2 hpos
  rw [renderRule]
  simp only [if_neg hneg, hat]

theorem renderRules_cons {depth : Nat} {rule : SignaturePolicy} {rules : List SignaturePolicy}
    {text : String} {texts : List String} (h : renderRule ps depth rule = .ok text)
    (hs : renderRules ps depth rules = .ok texts) :
    renderRules ps depth (rule :: rules) = .ok (text :: texts) := by
  rw [renderRules, h, hs]
  rfl

theorem renderRule_nOutOf {depth : Nat} {n : Int32} {rules : List SignaturePolicy}
    {texts : List String} (h : renderRules ps depth rules = .ok texts) :
    renderRule ps (depth + 1) (.nOutOf n rules) =
      .ok (gateHead n rules.length ++ ",".intercalate texts ++ ")") := by
  rw [renderRule, h]
  rfl

theorem scans_text {p : Principal} (h : '\'' ∉ p.mspId.toList) :
    Token.Scans ("'" ++ p.text ++ "'").toList [.literal p.text] := by
  have hquote : '\'' ∉ p.text.toList := by
    intro hmem
    rw [Principal.text, String.toList_append, String.toList_append, List.mem_append,
      List.mem_append] at hmem
    rcases hmem with (hmem | hmem) | hmem
    · exact h hmem
    · revert hmem
      decide
    · revert hmem
      cases p.role <;> decide
  have hscans := Token.scans_literal (.inl rfl) hquote
  rw [String.ofList_toList] at hscans
  rw [String.toList_append, String.toList_append]
  exact hscans

/-- The texts of the rules behind the first one, each behind a comma. -/
theorem scans_renderRules {depth : Nat} {rules : List SignaturePolicy}
    (h : ∀ r ∈ rules, ∃ text, renderRule ps depth r = .ok text ∧
      Token.Scans text.toList (r.expression ps).tokens) :
    ∃ texts, renderRules ps depth rules = .ok texts ∧
      Token.Scans ((texts.flatMap fun text => ',' :: text.toList) ++ [')'])
        (Expression.tokensRest (expressionAll ps rules)) := by
  induction rules with
  | nil =>
    refine ⟨[], by rw [renderRules], ?_⟩
    rw [expressionAll, Expression.tokensRest]
    exact Token.scans_closeParen
  | cons rule rules ih =>
    obtain ⟨text, htext, hscans⟩ := h rule (List.mem_cons_self ..)
    obtain ⟨texts, htexts, hrest⟩ := ih fun r hr => h r (List.mem_cons_of_mem rule hr)
    refine ⟨text :: texts, renderRules_cons htext htexts, ?_⟩
    rw [expressionAll, Expression.tokensRest, List.flatMap_cons, List.append_assoc]
    exact Token.scans_comma.append (hscans.append hrest)

theorem Proper.scans {depth : Nat} {rule : SignaturePolicy} (h : rule.Proper ps.length depth)
    (hps : ∀ p ∈ ps, p.Named) :
    ∃ text, renderRule ps depth rule = .ok text ∧
      Token.Scans text.toList (rule.expression ps).tokens := by
  induction h with
  | @signedBy depth i hpos hlt =>
    have hlt' : i.toInt.toNat < ps.length := by omega
    have hmem : principalAt ps i ∈ ps := by
      rw [principalAt, getElem!_pos ps _ hlt']
      exact List.getElem_mem hlt'
    have hat : ps[i.toInt.toNat]? = some (principalAt ps i) := by
      rw [principalAt, getElem!_pos ps _ hlt', List.getElem?_eq_getElem hlt']
    refine ⟨"'" ++ (principalAt ps i).text ++ "'", renderRule_signedBy hpos hat, ?_⟩
    rw [expression, Expression.tokens]
    exact scans_text (hps _ hmem).quote_notMem
  | @nOutOf depth n rules hne hpos hle hrules ih =>
    obtain ⟨first, rules, rfl⟩ := List.exists_cons_of_ne_nil hne
    obtain ⟨text, htext, hfirst⟩ := ih first (List.mem_cons_self ..)
    obtain ⟨texts, htexts, hrest⟩ := scans_renderRules
      fun r hr => ih r (List.mem_cons_of_mem first hr)
    refine ⟨gateHead n (rules.length + 1) ++ ",".intercalate (text :: texts) ++ ")",
      renderRule_nOutOf (renderRules_cons htext htexts), ?_⟩
    have hhead := scans_gateHead hpos (rules.length + 1)
    have hcount : (expressionAll ps rules).length = rules.length := by
      rw [expressionAll_eq, List.length_map]
    rw [expression, expressionAll, Expression.tokens, hcount, String.toList_append,
      String.toList_append, toList_intercalate_comma, List.append_assoc, List.append_assoc]
    exact hhead.append (hfirst.append hrest)

end SignaturePolicy

end ChannelConfig
