import CodegenRegistry.Proofs.Toml.Scanning
import CodegenRegistry.Toml.Value
/-!
# Numerals

An integer in canonical decimal is a word, and as a value it is the integer again.
-/

namespace CodegenRegistry.Toml

namespace Number

theorem hexDigit?_of_isDigit {c : Char} (h : c.isDigit) :
    hexDigit? c = some (c.toNat - '0'.toNat) := by
  unfold hexDigit?
  apply if_pos
  simpa [Char.isDigit, Char.le_def] using h

theorem digit?_of_isDigit {c : Char} (h : c.isDigit) :
    digit? 10 c = some (c.toNat - '0'.toNat) := by
  have hbound : c.toNat - '0'.toNat < 10 := by
    have hle : c.toNat ≤ '9'.toNat := by
      simp only [Char.isDigit, Bool.and_eq_true, decide_eq_true_eq] at h
      exact h.2
    have h9 : '9'.toNat = '0'.toNat + 9 := rfl
    omega
  rw [digit?, hexDigit?_of_isDigit h, Option.filter_some, if_pos (decide_eq_true hbound)]

theorem digits?_of_isDigit {cs : List Char} (h : ∀ c ∈ cs, c.isDigit) (value : Nat)
    {afterDigit : Bool} (hsome : afterDigit ∨ cs ≠ []) :
    digits? 10 value afterDigit cs = some (Nat.ofDigitChars 10 cs value) := by
  induction cs generalizing value afterDigit with
  | nil =>
      obtain rfl : afterDigit = true := by simpa using hsome
      rfl
  | cons c cs ih =>
      obtain ⟨hc, hcs⟩ := List.forall_mem_cons.1 h
      have hunderscore : c ≠ '_' := by
        rintro rfl
        exact absurd hc (by decide)
      rw [digits?, if_neg hunderscore, digit?_of_isDigit hc, Option.bind_some,
        ih hcs _ (.inl rfl), Nat.ofDigitChars_cons, Nat.mul_comm]

theorem toDigits_ne_zero_cons (n : Nat) {c : Char} {cs : List Char} :
    Nat.toDigits 10 n ≠ '0' :: c :: cs := by
  induction n using Nat.strongRecOn generalizing c cs with
  | ind n ih =>
      intro h
      rcases Nat.lt_or_ge n 10 with hn | hn
      · rw [Nat.toDigits_of_lt_base hn] at h
        simp at h
      · rw [Nat.toDigits_of_base_le (by decide) hn] at h
        -- the digit in front is that of `n / 10`, which is not zero
        cases hdigits : Nat.toDigits 10 (n / 10) with
        | nil => exact Nat.toDigits_ne_nil hdigits
        | cons d ds =>
            rw [hdigits, List.cons_append] at h
            obtain rfl : d = '0' := (List.cons.inj h).1
            cases ds with
            | nil =>
                have hvalue := Nat.ofDigitChars_ten_toDigits (n := n / 10)
                rw [hdigits] at hvalue
                have hzero : n / 10 = 0 := hvalue.symm
                omega
            | cons d ds => exact ih (n / 10) (by omega) hdigits

theorem isDigit_of_mem_toDigits {n : Nat} : ∀ c ∈ Nat.toDigits 10 n, c.isDigit :=
  fun _ hc => Nat.isDigit_of_mem_toDigits (by decide) (by decide) hc

theorem decimal?_toDigits (n : Nat) : decimal? (Nat.toDigits 10 n) = some n := by
  unfold decimal?
  split
  · rename_i h
    exact absurd h (toDigits_ne_zero_cons n)
  · rw [digits?_of_isDigit isDigit_of_mem_toDigits 0 (.inr Nat.toDigits_ne_nil),
      Nat.ofDigitChars_ten_toDigits]

theorem integer?_toDigits (n : Nat) : integer? (Nat.toDigits 10 n) = some (n : Int) := by
  have hdigits := isDigit_of_mem_toDigits (n := n)
  unfold integer?
  split
  case h_6 => rw [decimal?_toDigits]; rfl
  all_goals
    rename_i h
    rw [h] at hdigits
    simp at hdigits

theorem toList_toString_natCast (n : Nat) : (toString (n : Int)).toList = Nat.toDigits 10 n := by
  have hcast : toString (n : Int) = toString n := rfl
  rw [hcast, Nat.toString_eq_ofList_toDigits, String.toList_ofList]

theorem toList_toString_negSucc (n : Nat) :
    (toString (Int.negSucc n)).toList = '-' :: Nat.toDigits 10 (n + 1) := by
  have hneg : toString (Int.negSucc n) = "-" ++ toString (n + 1) := rfl
  rw [hneg, String.toList_append, Nat.toString_eq_ofList_toDigits]
  exact congrArg (['-'] ++ ·) String.toList_ofList

theorem integer?_toString (n : Int) : integer? (toString n).toList = some n := by
  cases n with
  | ofNat n =>
      have h := integer?_toDigits n
      rwa [← toList_toString_natCast] at h
  | negSucc n =>
      rw [toList_toString_negSucc, integer?, decimal?_toDigits]
      rfl

theorem isWordChar_of_isDigit {c : Char} (h : c.isDigit) : isWordChar c := by
  simp [isWordChar, Char.isAlphanum, h]

theorem toList_toString_ne_nil (n : Int) : (toString n).toList ≠ [] := by
  cases n with
  | ofNat n =>
      rw [Int.ofNat_eq_natCast, toList_toString_natCast]
      exact Nat.toDigits_ne_nil
  | negSucc n =>
      rw [toList_toString_negSucc]
      exact List.cons_ne_nil _ _

theorem isWord_toString (n : Int) : IsWord (toString n) := by
  refine ⟨by simpa using toList_toString_ne_nil n, ?_⟩
  intro c hc
  cases n with
  | ofNat n =>
      rw [Int.ofNat_eq_natCast, toList_toString_natCast] at hc
      exact isWordChar_of_isDigit (isDigit_of_mem_toDigits c hc)
  | negSucc n =>
      rw [toList_toString_negSucc, List.mem_cons] at hc
      rcases hc with rfl | hc
      · decide
      · exact isWordChar_of_isDigit (isDigit_of_mem_toDigits c hc)

end Number

theorem Item.ofWord?_toString (n : Int) : ofWord? (toString n) = some (.integer n) := by
  have hread := Number.integer?_toString n
  have hne : ∀ s : String, Number.integer? s.toList = none → toString n ≠ s := by
    rintro s hs rfl
    rw [hread] at hs
    cases hs
  rw [ofWord?, if_neg (hne "true" (by decide)), if_neg (hne "false" (by decide)), hread]
  rfl

end CodegenRegistry.Toml
