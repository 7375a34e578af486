import Mathlib
import Bourse.Proofs.CivilDates
import Bourse.Proofs.MonthPartition

/-!
# Reading month codes

A month code is read after trimming blanks. `MonthCode.classify` states the rules for the
answer in their own words: the trimmed text must be six ASCII digits (`SixDigits`), the number
its first two digits write must be a month 1 to 12, and a month that has not begun is in the
future; the month is the one the digits name (`MonthCode.named`, through `Nat.ofDigits`).

* `parse_eq_classify`: reading a code follows the rules, whatever the text: byte length and
  character count agree on digits (`utf8ByteSize_eq_sum`), and the digits are read as decimal
  numbers (`digitsValue_eq`);
* `after_ofClock_iff`: a month comes after the month of a clock exactly when it starts after
  the instant the clock names, read as a signed count of milliseconds;
* `parseNotFuture_classifies`: a month has begun by a clock below `2 ^ 63` exactly when its
  first millisecond (`MonthCode.bounds`) is not after the clock, and every month of the years
  0 to 9999, written `MMYYYY` (`MonthCode.text`), reads back as itself;
* clocks from `2 ^ 63` on read as instants before 1970, so a month that began long before such
  a clock is still in the future (`parseNotFuture_future_at_largest_clock`).
-/

namespace Bourse

/-! ## Texts of ASCII digits -/

/-- The bytes of a text are the bytes of its characters. -/
theorem utf8ByteSize_eq_sum (s : String) : s.utf8ByteSize = (s.toList.map Char.utf8Size).sum := by
  rw [← String.ofList_toList (s := s), String.toList_ofList]
  induction s.toList with
  | nil => rfl
  | cons c cs ih =>
    rw [String.ofList_cons, String.utf8ByteSize_append, String.utf8ByteSize_singleton, ih]
    simp

/-- Exactly six ASCII digits. -/
def SixDigits (t : String) : Prop := t.toList.length = 6 ∧ ∀ c ∈ t.toList, c.isDigit = true

instance : DecidablePred SixDigits := fun t =>
  decidable_of_iff (t.toList.length = 6 ∧ t.toList.all Char.isDigit = true)
    (by simp only [SixDigits, List.all_eq_true])

theorem isDigit_iff {c : Char} : c.isDigit = true ↔ 48 ≤ c.toNat ∧ c.toNat ≤ 57 := by
  have h0 : ('0' : Char).val.toNat = 48 := rfl
  have h9 : ('9' : Char).val.toNat = 57 := rfl
  simp only [Char.isDigit, Bool.and_eq_true, decide_eq_true_eq, UInt32.le_iff_toNat_le, h0, h9,
    Char.toNat]

theorem utf8Size_of_isDigit {c : Char} (h : c.isDigit = true) : c.utf8Size = 1 := by
  simp only [Char.isDigit, Bool.and_eq_true, decide_eq_true_eq] at h
  exact Char.utf8Size_eq_one_iff.2 (UInt32.le_trans h.2 (by decide))

/-- A text of digits has one byte per character. -/
theorem utf8ByteSize_of_digits {t : String} (hd : ∀ c ∈ t.toList, c.isDigit = true) :
    t.utf8ByteSize = t.toList.length := by
  rw [utf8ByteSize_eq_sum, List.map_congr_left fun c hc => utf8Size_of_isDigit (hd c hc)]
  simp

/-- Six bytes that are all digits are six digits. -/
theorem sixDigits_iff (t : String) :
    (t.utf8ByteSize = 6 ∧ t.toList.all (fun c => '0' ≤ c && c ≤ '9') = true) ↔ SixDigits t := by
  have hdigit : ∀ c : Char, ('0' ≤ c && c ≤ '9') = c.isDigit := fun c => by
    simp only [Char.isDigit, Char.le_def]
  simp only [hdigit, List.all_eq_true, SixDigits]
  constructor
  · rintro ⟨hsize, hd⟩
    exact ⟨(utf8ByteSize_of_digits hd).symm.trans hsize, hd⟩
  · rintro ⟨hlen, hd⟩
    exact ⟨(utf8ByteSize_of_digits hd).trans hlen, hd⟩

/-- The number a list of decimal digits writes, the most significant first. -/
def decimalValue (cs : List Char) : Nat := Nat.ofDigits 10 (cs.reverse.map fun c => c.toNat - 48)

theorem decimalValue_cons (c : Char) (cs : List Char) :
    decimalValue (c :: cs) = decimalValue cs + 10 ^ cs.length * (c.toNat - 48) := by
  simp [decimalValue, Nat.ofDigits_append]

theorem decimalValue_append_singleton (cs : List Char) (c : Char) :
    decimalValue (cs ++ [c]) = (c.toNat - 48) + 10 * decimalValue cs := by
  simp [decimalValue, Nat.ofDigits_cons]

/-- Reading digits left to right, ten times what came before plus the next digit, gives the
number they write. -/
theorem foldl_digits (acc : Nat) (cs : List Char) :
    cs.foldl (fun acc c => acc * 10 + (c.toNat - 48)) acc = acc * 10 ^ cs.length + decimalValue cs := by
  induction cs generalizing acc with
  | nil => simp [decimalValue]
  | cons c cs ih =>
    rw [List.foldl_cons, ih, decimalValue_cons, List.length_cons, Nat.pow_succ]
    ring

theorem digitsValue_eq (cs : List Char) : MonthCode.digitsValue cs = decimalValue cs := by
  rw [MonthCode.digitsValue, foldl_digits]
  simp

/-- Digits read as a number stay below the next power of ten. -/
theorem decimalValue_lt {cs : List Char} (hd : ∀ c ∈ cs, c.isDigit = true) :
    decimalValue cs < 10 ^ cs.length := by
  have h := Nat.ofDigits_lt_base_pow_length (b := 10) (l := cs.reverse.map fun c => c.toNat - 48)
    (by decide) (by
      simp only [List.mem_map, List.mem_reverse]
      rintro _ ⟨c, hc, rfl⟩
      have := isDigit_iff.1 (hd c hc)
      omega)
  rwa [List.length_map, List.length_reverse] at h

/-! ## Blanks around digits -/

theorem isBlank_of_isDigit {c : Char} (h : c.isDigit = true) : isBlank c = false := by
  have := isDigit_iff.1 h
  simp only [isBlank, Bool.or_eq_false_iff, Bool.and_eq_false_iff, decide_eq_false_iff_not,
    beq_eq_false_iff_ne]
  omega

theorem dropWhile_of_forall_not {l : List Char} {p : Char → Bool} (h : ∀ c ∈ l, p c = false) :
    l.dropWhile p = l := by
  cases l with
  | nil => rfl
  | cons c cs => simp [List.dropWhile, h c (List.mem_cons_self)]

/-- A text without blanks is its own trimmed text. -/
theorem trimBlanks_of_forall {s : String} (h : ∀ c ∈ s.toList, isBlank c = false) :
    trimBlanks s = s := by
  have hrev : ∀ c ∈ s.toList.reverse, isBlank c = false := fun c hc => h c (List.mem_reverse.1 hc)
  rw [trimBlanks, dropWhile_of_forall_not h, dropWhile_of_forall_not hrev, List.reverse_reverse,
    String.ofList_toList]

namespace MonthCode

/-! ## The rules for month codes -/

/-- The month six digits name: the first two digits write the month, the last four the year. -/
def named (t : String) : MonthCode :=
  { year := decimalValue (t.toList.drop 2), month := decimalValue (t.toList.take 2) }

/-- The answer the rules for month codes give to a text, given which months have begun: a text
that is not six ASCII digits once its blanks are trimmed is malformed, quoting the trimmed
text; six digits whose first two do not write a month 1 to 12 name an invalid month; a month
that has not begun is in the future; and the month is the answer otherwise. -/
def classify (begun : MonthCode → Bool) (code : String) : Except MonthError MonthCode :=
  let t := trimBlanks code
  if ¬SixDigits t then .error (.malformed t)
  else if ¬(named t).Valid then .error (.invalidMonth (named t).month)
  else if begun (named t) then .ok (named t)
  else .error (.future (named t).month (named t).year)

/-- The month six digits name lies in the years 0 to 9999. -/
theorem named_year_le {t : String} (h : SixDigits t) : 0 ≤ (named t).year ∧ (named t).year ≤ 9999 := by
  have hd : ∀ c ∈ t.toList.drop 2, c.isDigit = true := fun c hc => h.2 c (List.mem_of_mem_drop hc)
  have hlt := decimalValue_lt hd
  rw [List.length_drop, h.1] at hlt
  simp only [named]
  omega

/-- The rules ask whether a month has begun only of a month 1 to 12 of the years 0 to 9999. -/
theorem classify_congr {b b' : MonthCode → Bool}
    (h : ∀ m : MonthCode, m.Valid → 0 ≤ m.year → m.year ≤ 9999 → b m = b' m) (code : String) :
    classify b code = classify b' code := by
  unfold classify
  dsimp only
  by_cases hs : SixDigits (trimBlanks code)
  · by_cases hv : (named (trimBlanks code)).Valid
    · have hy := named_year_le hs
      rw [h _ hv hy.1 hy.2]
    · rw [if_neg (not_not_intro hs), if_pos hv, if_neg (not_not_intro hs), if_pos hv]
  · rw [if_pos hs, if_pos hs]

/-- **Reading a code follows the rules**, for every text, every month having begun. -/
theorem parse_eq_classify (code : String) : parse code = classify (fun _ => true) code := by
  unfold parse classify
  dsimp only
  by_cases hs : SixDigits (trimBlanks code)
  · simp only [digitsValue_eq, (sixDigits_iff _).2 hs, hs, and_self, if_true, not_true_eq_false,
      if_false]
    by_cases hv : (named (trimBlanks code)).Valid
    · simp only [Valid, named] at hv
      simp only [Valid, named, hv, and_self, if_true, not_true_eq_false, if_false]
    · simp only [Valid, named] at hv
      simp only [Valid, named, hv, if_false, not_false_eq_true, if_true]
  · have hs' : ¬((trimBlanks code).utf8ByteSize = 6 ∧
        ((trimBlanks code).toList.all fun c => '0' ≤ c && c ≤ '9') = true) :=
      mt (sixDigits_iff _).1 hs
    simp only [hs', hs, if_false, not_false_eq_true, if_true]

/-! ## Months against a clock -/

/-- The month of a clock reading, when the instant it names has a date. -/
theorem ofClock_eq (now : UInt64) : ofClock now =
    if Calendar.inRange (ofDays (Calendar.signed now / Calendar.dayMillis)).year then
      some (ofDays (Calendar.signed now / Calendar.dayMillis))
    else none := by
  unfold ofClock Calendar.dateOfMillis ofDays
  dsimp only
  split_ifs <;> rfl

/-- Whether a month starts after an instant, in milliseconds. -/
def startsAfter (m : MonthCode) (t : Int) : Bool := decide (t < m.firstDay * Calendar.dayMillis)

/-- **A month comes after the month of a clock exactly when it starts after the instant the
clock names.** -/
theorem after_ofClock_iff {m c : MonthCode} (hm : m.Valid) {now : UInt64}
    (h : ofClock now = some c) : m.after c = true ↔ m.startsAfter (Calendar.signed now) = true := by
  rw [ofClock_eq] at h
  split_ifs at h
  cases h
  rw [after_ofDays_iff hm, startsAfter, decide_eq_true_iff]
  exact Int.ediv_lt_iff_lt_mul (by decide)

/-- **Reading a code against a clock follows the rules**, for every text and every clock: a
month has begun unless the clock names an instant with a date and the month starts after it. -/
theorem parseNotFuture_eq_classify (code : String) (now : UInt64) :
    parseNotFuture code now =
      classify (fun m => !((ofClock now).isSome && m.startsAfter (Calendar.signed now))) code := by
  unfold parseNotFuture
  rw [parse_eq_classify]
  unfold classify
  dsimp only
  by_cases hs : SixDigits (trimBlanks code)
  · by_cases hv : (named (trimBlanks code)).Valid
    · simp only [hs, hv, not_true_eq_false, if_false, if_true, bind, Except.bind]
      cases hc : ofClock now with
      | none => simp
      | some c =>
        -- the month is in the future exactly when it comes after the clock's month
        have hiff := after_ofClock_iff hv hc
        generalize named (trimBlanks code) = m at hiff ⊢
        generalize Calendar.signed now = t at hiff ⊢
        simp only [Option.isSome_some, Bool.true_and]
        by_cases ha : m.after c = true
        · simp only [ha, hiff.1 ha, if_true, Bool.not_true, Bool.false_eq_true, if_false]
        · have hst : m.startsAfter t = false := Bool.eq_false_iff.2 (mt hiff.2 ha)
          simp only [ha, hst, if_false, Bool.not_false, if_true, Bool.false_eq_true]
    · simp only [hs, hv, not_true_eq_false, not_false_eq_true, if_false, if_true, bind,
        Except.bind]
  · simp only [hs, not_false_eq_true, if_true, bind, Except.bind]

/-- Below `2 ^ 63` a clock names an instant after the epoch, so a month of the years 0 to
9999 has begun by it exactly when its first millisecond is not after it. -/
theorem begun_iff_of_lt {m : MonthCode} (hm : m.Valid) (hy : 0 ≤ m.year ∧ m.year ≤ 9999)
    {now : UInt64} (hnow : now.toNat < 2 ^ 63) :
    (!((ofClock now).isSome && m.startsAfter (Calendar.signed now))) = decide (m.bounds.1 ≤ now) := by
  have hsigned := Calendar.signed_of_lt hnow
  have hF : m.firstDay ≤ 2932897 := Calendar.daysFromCivil_le (by omega) hm
  have hstart : m.bounds.1 = Calendar.monthStart m.year m.month := rfl
  rw [hstart, Calendar.monthStart, if_pos ⟨hm.1, hm.2, inRange_of_le hy.1 (by omega)⟩, hsigned]
  dsimp only
  change _ = decide ((if m.firstDay * Calendar.dayMillis < 0 then 0
    else (m.firstDay * Calendar.dayMillis).toNat.toUInt64) ≤ now)
  simp only [startsAfter, Calendar.dayMillis] at hF ⊢
  by_cases hneg : m.firstDay * 86400000 < 0
  · -- a month that starts before the epoch has begun by every clock
    have : ¬((now.toNat : Int) < m.firstDay * 86400000) := by omega
    simp [this, hneg]
  · simp only [hneg, if_false]
    -- the first millisecond of the month is a word, compared with the clock as a number
    have hword : ((m.firstDay * 86400000).toNat.toUInt64).toNat = (m.firstDay * 86400000).toNat := by
      simp only [Nat.toUInt64_eq, UInt64.toNat_ofNat']
      exact Nat.mod_eq_of_lt (by omega)
    have hle : ((m.firstDay * 86400000).toNat.toUInt64 ≤ now) ↔
        m.firstDay * 86400000 ≤ (now.toNat : Int) := by
      rw [UInt64.le_iff_toNat_le, hword]
      omega
    by_cases hlt : (now.toNat : Int) < m.firstDay * 86400000
    · -- the clock lies before year 10000, so it has a date
      have hD : Calendar.inRange (ofDays ((now.toNat : Int) / 86400000)).year = true :=
        Calendar.inRange_civilOfDays (by omega) (by omega)
      have hsome : (ofClock now).isSome = true := by
        rw [ofClock_eq, hsigned]
        simp [Calendar.dayMillis, hD]
      simp only [hsome, hlt, decide_true, Bool.and_self, Bool.not_true]
      exact (decide_eq_false (mt hle.1 (by omega))).symm
    · simp only [hlt, decide_false, Bool.and_false, Bool.not_false]
      exact (decide_eq_true (hle.2 (by omega))).symm

/-- Against a clock below `2 ^ 63`, a code reads by the rules with a month having begun
exactly when its first millisecond is not after the clock. -/
theorem parseNotFuture_eq_of_lt (code : String) {now : UInt64} (hnow : now.toNat < 2 ^ 63) :
    parseNotFuture code now = classify (fun m => decide (m.bounds.1 ≤ now)) code := by
  rw [parseNotFuture_eq_classify]
  exact classify_congr (fun m hm h0 h1 => begun_iff_of_lt hm ⟨h0, h1⟩ hnow) code

end MonthCode

/-! ## Writing a month -/

/-- The last `w` decimal digits of `n`, the most significant first, zeros in front. -/
def paddedDigits : Nat → Nat → List Char
  | 0, _ => []
  | w + 1, n => paddedDigits w (n / 10) ++ [Char.ofNat (48 + n % 10)]

/-- A month written `MMYYYY`: the month in two digits and the year in four, zeros in front. -/
def MonthCode.text (m : MonthCode) : String :=
  String.ofList (paddedDigits 2 m.month ++ paddedDigits 4 m.year.toNat)

theorem toNat_digitChar {d : Nat} (h : d < 10) : (Char.ofNat (48 + d)).toNat = 48 + d := by
  have hv : (48 + d).isValidChar := by unfold Nat.isValidChar; omega
  rw [Char.ofNat, dif_pos hv]
  simp only [Char.ofNatAux, Char.toNat, UInt32.toNat, BitVec.toNat_ofNatLT]

theorem length_paddedDigits (w n : Nat) : (paddedDigits w n).length = w := by
  induction w generalizing n with
  | zero => rfl
  | succ w ih => simp [paddedDigits, ih]

theorem isDigit_of_mem_paddedDigits {w n : Nat} {c : Char} (h : c ∈ paddedDigits w n) :
    c.isDigit = true := by
  induction w generalizing n with
  | zero => simp [paddedDigits] at h
  | succ w ih =>
    rcases List.mem_append.1 h with h | h
    · exact ih h
    · rw [List.mem_singleton.1 h, isDigit_iff, toNat_digitChar (Nat.mod_lt _ (by decide))]
      omega

/-- Padded digits read back as the number modulo the power of ten. -/
theorem decimalValue_paddedDigits (w n : Nat) : decimalValue (paddedDigits w n) = n % 10 ^ w := by
  induction w generalizing n with
  | zero => simp [paddedDigits, decimalValue, Nat.mod_one]
  | succ w ih =>
    rw [paddedDigits, decimalValue_append_singleton, ih, toNat_digitChar (Nat.mod_lt _ (by decide)),
      Nat.pow_succ, Nat.mul_comm (10 ^ w) 10, Nat.mod_mul]
    omega

namespace MonthCode

/-- **A month of the years 0 to 9999 written `MMYYYY` reads back as itself.** -/
theorem parse_text {m : MonthCode} (hm : m.Valid) (hy : 0 ≤ m.year ∧ m.year ≤ 9999) :
    parse m.text = .ok m := by
  have hd : ∀ c ∈ m.text.toList, c.isDigit = true := by
    intro c hc
    simp only [text, String.toList_ofList, List.mem_append] at hc
    exact hc.elim isDigit_of_mem_paddedDigits isDigit_of_mem_paddedDigits
  have ht : trimBlanks m.text = m.text := trimBlanks_of_forall fun c hc => isBlank_of_isDigit (hd c hc)
  have hsix : SixDigits m.text := ⟨by simp [text, length_paddedDigits], hd⟩
  have hnamed : named m.text = m := by
    obtain ⟨y, k⟩ := m
    simp only [Valid] at hm hy
    simp only [named, text, String.toList_ofList]
    rw [List.take_left' (length_paddedDigits 2 k), List.drop_left' (length_paddedDigits 2 k),
      decimalValue_paddedDigits, decimalValue_paddedDigits]
    simp only [MonthCode.mk.injEq]
    omega
  rw [parse_eq_classify]
  simp only [classify, ht, hsix, hnamed, hm, not_true_eq_false, if_false, if_true]

end MonthCode

/-- **Month codes are classified by the rules.**  Against every clock below `2 ^ 63`, a code is
read by `MonthCode.classify`, a month counting as begun exactly when its first millisecond is at
or before the clock; and every month of the years 0 to 9999 written `MMYYYY` reads back as
itself. -/
theorem parseNotFuture_classifies (code : String) (now : UInt64) (hnow : now.toNat < 2 ^ 63) :
    MonthCode.parseNotFuture code now =
      MonthCode.classify (fun m => decide (m.bounds.1 ≤ now)) code ∧
    (∀ m : MonthCode, m.Valid → 0 ≤ m.year → m.year ≤ 9999 → MonthCode.parse m.text = .ok m) :=
  ⟨MonthCode.parseNotFuture_eq_of_lt code hnow, fun _ hm h0 h1 => MonthCode.parse_text hm ⟨h0, h1⟩⟩

/-- March 2024 is written `032024` and reads back; with blanks around it, it has begun by its
first millisecond, and it is in the future one millisecond before. -/
theorem parseNotFuture_classifies_march_2024 :
    MonthCode.text ⟨2024, 3⟩ = "032024" ∧
    MonthCode.parse "032024" = .ok ⟨2024, 3⟩ ∧
    MonthCode.parseNotFuture " 032024\n" 1709251200000 = .ok ⟨2024, 3⟩ ∧
    MonthCode.parseNotFuture "032024" 1709251199999 = .error (.future 3 2024) := by
  have htext : MonthCode.text ⟨2024, 3⟩ = "032024" := by decide +kernel
  have hstart := parseNotFuture_classifies " 032024\n" 1709251200000 (by decide +kernel)
  have hbefore := parseNotFuture_classifies "032024" 1709251199999 (by decide +kernel)
  refine ⟨htext, ?_, hstart.1.trans (by decide +kernel), hbefore.1.trans (by decide +kernel)⟩
  rw [← htext]
  exact hstart.2 ⟨2024, 3⟩ (by decide) (by decide) (by decide)

/-- At the largest clock, which reads as the last millisecond of 1969, March 2024 is in the
future although its first millisecond lies before that clock as a word. -/
theorem parseNotFuture_future_at_largest_clock :
    (MonthCode.bounds ⟨2024, 3⟩).1 ≤ 18446744073709551615 ∧
    MonthCode.parseNotFuture "032024" 18446744073709551615 = .error (.future 3 2024) :=
  ⟨by decide +kernel, (MonthCode.parseNotFuture_eq_classify _ _).trans (by decide +kernel)⟩

end Bourse
