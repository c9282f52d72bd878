import CreditScorecard.Proofs.Text.Digits
import CreditScorecard.Timestamp.Text

/-! # Instants in text and back

Every instant is read from the text that it is written in, a leap second or a year outside four
digits included.
-/

namespace CreditScorecard.Timestamp

open Text

/-! ## Readers -/

/-- A reader takes a value from the front of a text and leaves the rest. -/
def Reads {α : Type} (r : Reader α) (cs : List Char) (a : α) (rest : List Char) : Prop :=
  r.run cs = .ok (a, rest)

theorem Reads.bind {α β : Type} {r : Reader α} {f : α → Reader β} {cs next rest : List Char}
    {a : α} {b : β} (hr : Reads r cs a next) (hf : Reads (f a) next b rest) :
    Reads (r >>= f) cs b rest := by
  have hrun : (r >>= f).run cs = r.run cs >>= fun p => (f p.1).run p.2 := rfl
  rw [Reads, hrun, show r.run cs = .ok (a, next) from hr]
  exact hf

theorem reads_pure {α : Type} (a : α) (cs : List Char) : Reads (pure a) cs a cs :=
  rfl

theorem reads_get (cs : List Char) : Reads get cs cs cs :=
  rfl

theorem reads_set (cs next : List Char) : Reads (set next) cs () next :=
  rfl

theorem reads_skipBlanks {cs : List Char} (h : Stops isBlank cs) : Reads skipBlanks cs () cs := by
  have htrim : trimLeft cs = cs := dropWhile_eq_self_of_stops h
  exact congrArg (fun rest => Except.ok ((), rest)) htrim

theorem reads_readMark {marks : List Char} {c : Char} (h : c ∈ marks) (rest : List Char) :
    Reads (readMark marks) (c :: rest) () rest := by
  refine (reads_get (c :: rest)).bind ?_
  simp only [if_pos h]
  exact reads_set _ rest

/-! ## Padded numbers -/

theorem isDigit_of_mem_padded {width n : Nat} {c : Char} (h : c ∈ padded width n) :
    c.isDigit = true := by
  rcases List.mem_append.mp h with h | h
  · rw [List.eq_of_mem_replicate h]
    decide
  · exact isDigit_of_mem_toDigits h

theorem padded_ne_nil (width n : Nat) : padded width n ≠ [] := by
  simp [padded, Nat.toDigits_ne_nil]

/-- A padded number begins with a digit, so with no sign. -/
theorem isDigit_of_padded_append_eq_cons {width n : Nat} {rest cs : List Char} {c : Char}
    (h : padded width n ++ rest = c :: cs) : c.isDigit = true := by
  cases hdigits : padded width n with
  | nil => exact absurd hdigits (padded_ne_nil width n)
  | cons d ds =>
      rw [hdigits, List.cons_append, List.cons.injEq] at h
      have hmem : c ∈ padded width n := by simp [hdigits, h.1]
      exact isDigit_of_mem_padded hmem

theorem ofDigitChars_padded (width n : Nat) : Nat.ofDigitChars 10 (padded width n) 0 = n := by
  simp [padded, Nat.ofDigitChars_append, Nat.ofDigitChars_ten_toDigits]

theorem length_padded {width n : Nat} (hwidth : 0 < width) (h : n < Nat.pow 10 width) :
    (padded width n).length = width := by
  have hlength : (Nat.toDigits 10 n).length ≤ width :=
    (Nat.length_toDigits_le_iff (by decide) hwidth).mpr h
  simp only [padded, List.length_append, List.length_replicate]
  omega

theorem stops_isBlank_padded (width n : Nat) (rest : List Char) :
    Stops isBlank (padded width n ++ rest) :=
  stops_isBlank_append (padded_ne_nil width n) (fun _ => isDigit_of_mem_padded) rest

theorem takeWhile_padded {limit width n : Nat} {rest : List Char}
    (hlimit : (padded width n).length ≤ limit) (hrest : Stops Char.isDigit rest) :
    ((padded width n ++ rest).take limit).takeWhile Char.isDigit = padded width n := by
  rw [List.take_append, List.take_of_length_le hlimit]
  exact takeWhile_append_of_stops (fun _ => isDigit_of_mem_padded) (stops_take hrest _)

/-- A padded number is read up to the next character, if it fits the width of the field. -/
theorem reads_readNumber {limit width n : Nat} {rest : List Char}
    (hlimit : (padded width n).length ≤ limit) (hrest : Stops Char.isDigit rest)
    (hsize : n < 0x8000000000000000) :
    Reads (readNumber limit) (padded width n ++ rest) n rest := by
  have hne := padded_ne_nil width n
  have hcs : (padded width n ++ rest).isEmpty = false := by simp [hne]
  refine (reads_get _).bind ?_
  simp only [takeWhile_padded hlimit hrest, ofDigitChars_padded, hcs,
    List.isEmpty_eq_false_iff.mpr hne, if_pos hsize, List.drop_left, Bool.false_eq_true, if_false]
  exact (reads_set _ rest).bind (reads_pure n rest)

theorem reads_readField {least most n : Nat} {rest : List Char} (hleast : least ≤ n)
    (hmost : n ≤ most) (hsize : n < 100) (hrest : Stops Char.isDigit rest) :
    Reads (readField least most) (padded 2 n ++ rest) n rest := by
  have hlength : (padded 2 n).length ≤ 2 := Nat.le_of_eq (length_padded (by decide) hsize)
  refine (reads_skipBlanks (stops_isBlank_padded 2 n rest)).bind ?_
  refine (reads_readNumber hlength hrest (by omega)).bind ?_
  rw [if_pos ⟨hleast, hmost⟩]
  exact reads_pure n rest

/-! ## Dates -/

/-- After a sign, as many digits are read as there are. -/
theorem reads_signed (sign : Char) (value : Nat → Int) {n : Nat} {rest : List Char}
    (hrest : Stops Char.isDigit rest) (hsize : n < 0x8000000000000000) :
    Reads (do
        set (padded 4 n ++ rest)
        pure (value (← readNumber (padded 4 n ++ rest).length)) : Reader Int)
      (sign :: (padded 4 n ++ rest)) (value n) rest := by
  refine (reads_set _ (padded 4 n ++ rest)).bind ?_
  exact (reads_readNumber (by simp) hrest hsize).bind (reads_pure (value n) rest)

theorem reads_readYear {year : Int} (hrange : -0x80000000 ≤ year ∧ year < 0x80000000)
    {rest : List Char} (hrest : Stops Char.isDigit rest) :
    Reads readYear (yearText year ++ rest) year rest := by
  have hsize : year.natAbs < 0x8000000000000000 := by omega
  have hend : Reads (if -0x80000000 ≤ year ∧ year < 0x80000000 then pure year
      else throw .outOfRange : Reader Int) rest year rest := by
    rw [if_pos hrange]
    exact reads_pure year rest
  by_cases hfour : 0 ≤ year ∧ year ≤ 9999
  · have hdigits : year.natAbs < 10000 := by omega
    have hlength : (padded 4 year.natAbs).length ≤ 4 :=
      Nat.le_of_eq (length_padded (by decide) hdigits)
    have hyear : (year.natAbs : Int) = year := by omega
    rw [yearText, if_pos hfour]
    refine (reads_skipBlanks (stops_isBlank_padded 4 year.natAbs rest)).bind ?_
    refine Reads.bind (a := year) ?_ hend
    refine (reads_get _).bind ?_
    -- without a sign the first character is a digit
    split
    · rename_i heq
      exact absurd (isDigit_of_padded_append_eq_cons heq) (by decide)
    · rename_i heq
      exact absurd (isDigit_of_padded_append_eq_cons heq) (by decide)
    · refine (reads_readNumber hlength hrest hsize).bind ?_
      rw [hyear]
      exact reads_pure year rest
  · rw [yearText, if_neg hfour]
    by_cases hneg : year < 0
    · have hyear : -(year.natAbs : Int) = year := by omega
      have hsigned := reads_signed '-' (fun n => -(n : Int)) hrest hsize
      rw [hyear] at hsigned
      rw [if_pos hneg]
      refine (reads_skipBlanks (by simp; decide)).bind ?_
      exact Reads.bind ((reads_get _).bind hsigned) hend
    · have hyear : (year.natAbs : Int) = year := by omega
      have hsigned := reads_signed '+' (fun n => (n : Int)) hrest hsize
      rw [hyear] at hsigned
      rw [if_neg hneg]
      refine (reads_skipBlanks (by simp; decide)).bind ?_
      exact Reads.bind ((reads_get _).bind hsigned) hend

theorem daysInMonth_le (year : Int) (month : Nat) : daysInMonth year month ≤ 31 := by
  simp only [daysInMonth]
  repeat' split
  all_goals decide

/-- The date itself is checked later, so three numbers are read. -/
theorem reads_readDate (d : Date) {rest : List Char} (hrest : Stops Char.isDigit rest) :
    Reads readDate (yearText d.year ++ '-' :: (padded 2 d.month ++ '-' :: (padded 2 d.day ++ rest)))
      (d.year, d.month, d.day) rest := by
  have hy := d.year_range
  have hm := d.month_range
  have hd := d.day_range
  have hmost : d.day ≤ 31 := Nat.le_trans hd.2 (daysInMonth_le d.year d.month)
  have hmark : ∀ cs, Stops isBlank ('-' :: cs) ∧ Stops Char.isDigit ('-' :: cs) := by
    intro cs
    simp only [stops_cons]
    decide
  refine (reads_readYear (by omega) (hmark _).2).bind ?_
  refine (reads_skipBlanks (hmark _).1).bind ?_
  refine (reads_readMark (by simp) _).bind ?_
  refine (reads_readField hm.1 hm.2 (by omega) (hmark _).2).bind ?_
  refine (reads_skipBlanks (hmark _).1).bind ?_
  refine (reads_readMark (by simp) _).bind ?_
  refine (reads_readField hd.1 hmost (by omega) hrest).bind ?_
  exact reads_pure _ rest

/-! ## Times of day -/

/-- The digits of a fraction count from the left, so those that are missing are zeros. -/
theorem reads_readFraction_point {places value : Nat} (hpos : 0 < places) (hle : places ≤ 9)
    (hvalue : value < Nat.pow 10 places) {rest : List Char} (hrest : Stops Char.isDigit rest) :
    Reads readFraction ('.' :: (padded places value ++ rest)) (value * Nat.pow 10 (9 - places))
      rest := by
  have hlength : (padded places value).length = places := length_padded hpos hvalue
  have hlimit : (padded places value).length ≤ 9 := by omega
  have hsize : value < 0x8000000000000000 := by
    calc
      value < Nat.pow 10 places := hvalue
      _ ≤ Nat.pow 10 9 := Nat.pow_le_pow_right (by decide) hle
      _ ≤ 0x8000000000000000 := by decide
  have hdrop : Reads (modify (·.dropWhile Char.isDigit)) rest () rest :=
    congrArg (fun rest => Except.ok ((), rest)) (dropWhile_eq_self_of_stops hrest)
  refine (reads_get _).bind ?_
  simp only [takeWhile_padded hlimit hrest, hlength]
  refine (reads_set _ (padded places value ++ rest)).bind ?_
  refine (reads_readNumber hlimit hrest hsize).bind ?_
  exact hdrop.bind (reads_pure _ rest)

theorem reads_readFraction {nano : Nat} (h : nano < 1000000000) :
    Reads readFraction (fractionText nano ++ ['Z']) nano ['Z'] := by
  have hrest : Stops Char.isDigit ['Z'] := by
    simp only [stops_cons]
    decide
  have hpoint : ∀ {places value : Nat}, 0 < places → places ≤ 9 → value < 10 ^ places →
      value * Nat.pow 10 (9 - places) = nano →
      Reads readFraction ('.' :: padded places value ++ ['Z']) nano ['Z'] := by
    intro places value hpos hle hvalue hnano
    rw [← hnano]
    exact reads_readFraction_point hpos hle hvalue hrest
  unfold fractionText
  split
  · rename_i hzero
    rw [hzero]
    rfl
  · split
    · exact hpoint (by decide) (by decide) (by omega) (by simp; omega)
    · split
      · exact hpoint (by decide) (by decide) (by omega) (by simp; omega)
      · exact hpoint (by decide) (by decide) (by omega) (by simp)

theorem stops_fractionText (nano : Nat) : Stops Char.isDigit (fractionText nano ++ ['Z']) := by
  have hpoint : ∀ cs, Stops Char.isDigit ('.' :: cs ++ ['Z']) := by
    intro cs
    rw [List.cons_append, stops_cons]
    decide
  unfold fractionText
  split
  · rw [List.nil_append, stops_cons]
    decide
  · split
    · exact hpoint _
    · split
      · exact hpoint _
      · exact hpoint _

/-- The second and the fraction that a time is written with. -/
def clock (t : TimeOfDay) : Nat × Nat :=
  if t.nano < 1000000000 then (t.second, t.nano) else (t.second + 1, t.nano - 1000000000)

theorem clock_range (t : TimeOfDay) : (clock t).1 ≤ 60 ∧ (clock t).2 < 1000000000 := by
  have hs := t.second_lt
  have hn := t.nano_lt
  unfold clock
  split <;> simp only <;> omega

/-- Second 60 is written for a leap second only. -/
theorem of_clock (t : TimeOfDay) :
    (if (clock t).1 = 60 then (59, (clock t).2 + 1000000000) else ((clock t).1, (clock t).2)) =
      (t.second, t.nano) := by
  have hs := t.second_lt
  have hn := t.nano_lt
  by_cases h : t.nano < 1000000000
  · have hne : ¬t.second = 60 := by omega
    simp only [clock, if_pos h, if_neg hne]
  · have hsecond : t.second = 59 := by omega
    have hnano : t.nano - 1000000000 + 1000000000 = t.nano := by omega
    simp only [clock, if_neg h, hsecond, hnano, if_true]

theorem reads_readTime (t : TimeOfDay) :
    Reads readTime
      (padded 2 t.hour ++ ':' :: (padded 2 t.minute ++ ':' ::
        (padded 2 (clock t).1 ++ (fractionText (clock t).2 ++ ['Z']))))
      t ['Z'] := by
  have hh := t.hour_lt
  have hm := t.minute_lt
  obtain ⟨hs, hn⟩ := clock_range t
  have hmark : ∀ cs, Stops isBlank (':' :: cs) ∧ Stops Char.isDigit (':' :: cs) := by
    intro cs
    simp only [stops_cons]
    decide
  refine (reads_readField (Nat.zero_le _) (by omega) (by omega) (hmark _).2).bind ?_
  refine (reads_skipBlanks (hmark _).1).bind ?_
  refine (reads_readMark (by simp) _).bind ?_
  refine (reads_readField (Nat.zero_le _) (by omega) (by omega) (hmark _).2).bind ?_
  refine (reads_skipBlanks (hmark _).1).bind ?_
  refine (reads_readMark (by simp) _).bind ?_
  refine (reads_readField (Nat.zero_le _) hs (by omega) (stops_fractionText _)).bind ?_
  refine (reads_readFraction hn).bind ?_
  simp only [of_clock]
  rw [dif_pos ⟨t.hour_lt, t.minute_lt, t.second_lt, t.nano_lt⟩]
  exact reads_pure t ['Z']

/-! ## Instants -/

theorem text_eq (t : Timestamp) :
    t.text.toList =
      yearText t.date.year ++ '-' :: (padded 2 t.date.month ++ '-' :: (padded 2 t.date.day ++
        'T' :: (padded 2 t.time.hour ++ ':' :: (padded 2 t.time.minute ++ ':' ::
          (padded 2 (clock t.time).1 ++ (fractionText (clock t.time).2 ++ ['Z'])))))) := by
  simp only [text, String.toList_ofList, List.append_assoc, List.cons_append]
  rfl

theorem ofFields?_eq (d : Date) : Date.ofFields? d.year d.month d.day = some d := by
  simp only [Date.ofFields?, dif_pos d.year_range, dif_pos d.month_range, dif_pos d.day_range]

theorem reads_readInstant (t : Timestamp) : Reads readInstant t.text.toList t [] := by
  have hmark : ∀ cs, Stops Char.isDigit ('T' :: cs) := by
    intro cs
    rw [stops_cons]
    decide
  rw [text_eq]
  refine (reads_readDate t.date (hmark _)).bind ?_
  refine (reads_readMark (by simp) _).bind ?_
  refine (reads_readTime t.time).bind ?_
  refine (reads_skipBlanks (by rw [stops_cons]; decide)).bind ?_
  have hoffset : Reads readOffset ['Z'] 0 [] := rfl
  refine hoffset.bind ?_
  refine (reads_skipBlanks (stops_nil _)).bind ?_
  refine (reads_get []).bind ?_
  simp only [ofFields?_eq, ofLocal?_zero]
  rfl

/-- Every instant is read from its own text. -/
theorem read_text (t : Timestamp) : read t.text = .ok t := by
  have h : readInstant.run t.text.toList = .ok (t, []) := reads_readInstant t
  rw [read, h]
  rfl

end CreditScorecard.Timestamp
