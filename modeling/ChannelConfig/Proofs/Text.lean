/-! Runs of characters at the head of a text. -/

set_option autoImplicit false

namespace ChannelConfig.Text

variable {p : Char → Bool} {run : List Char}

/-- A run of characters, and a text that does not go on with it. -/
theorem takeWhile_dropWhile_append {rest : List Char} (hrun : ∀ c ∈ run, p c = true)
    (hrest : ∀ c, rest.head? = some c → p c = false) :
    (run ++ rest).takeWhile p = run ∧ (run ++ rest).dropWhile p = rest := by
  rw [List.takeWhile_append_of_pos hrun, List.dropWhile_append_of_pos hrun]
  cases rest with
  | nil => exact ⟨List.append_nil run, rfl⟩
  | cons c rest =>
    have hc : ¬ p c = true := by
      rw [hrest c rfl]
      exact Bool.false_ne_true
    rw [List.takeWhile_cons_of_neg hc, List.dropWhile_cons_of_neg hc, List.append_nil]
    exact ⟨rfl, rfl⟩

/-- A run of characters up to one that does not belong to it. -/
theorem takeWhile_dropWhile_run (h : ∀ c ∈ run, p c = true) (stop : Char) (hstop : p stop = false)
    (rest : List Char) :
    (run ++ stop :: rest).takeWhile p = run ∧
      (run ++ stop :: rest).dropWhile p = stop :: rest :=
  takeWhile_dropWhile_append h fun _ hc => Option.some.inj hc ▸ hstop

end ChannelConfig.Text
