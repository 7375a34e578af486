import Mathlib
import Bourse.Json.Parse

/-!
# Reading JSON text, step by step

A reader (`Json.Scan`) walks a cursor along the characters of a text.  `Scan.Reads m input
rest a` says that `m`, started on a stream cursor standing at `input`, succeeds with `a` and
leaves the cursor standing at `rest`; it composes along `>>=` (`Reads.bind`), so that the
reading of a whole text is assembled from the readings of its pieces, each stated on the
piece followed by an arbitrary rest.

This file gives the readings of the lexemes that the JSON writer produces:

* `reads_blanks`: blanks (space, line feed, tab, carriage return) are skipped up to the first
  character that is not one;
* `reads_word`: the decimal text of a word, followed by a character that cannot continue a
  number, reads as that word;
* `reads_string`: the characters of a string escaped by `Json.escapeChar`, then a quote, read
  as that string, whatever characters it holds;
* the punctuation between members and elements (`reads_nextElement_open` and its siblings),
  and `Reads.attempt`, by which a bracket is closed after its contents.
-/

namespace Bourse

namespace Json

namespace Scan

/-! ## Readings -/

/-- A stream cursor standing at `input`, its count of characters left in step. -/
structure At (c : Cursor) (input : List Char) : Prop where
  rest : c.rest = input
  left : c.left = input.length
  stream : c.reading = .stream

/-- `m` reads `input` down to `rest` and gives `a`: from every stream cursor standing at
`input` it succeeds with `a`, leaving the cursor standing at `rest`. -/
def Reads (m : Scan α) (input rest : List Char) (a : α) : Prop :=
  ∀ c, At c input → ∃ c', m.run.run c = (.ok a, c') ∧ At c' rest

theorem run_bind (m : Scan α) (f : α → Scan β) (c : Cursor) :
    (m >>= f).run.run c = match m.run.run c with
      | (.ok a, c') => (f a).run.run c'
      | (.error e, c') => (.error e, c') := by
  simp only [ExceptT.run_bind, StateT.run_bind]
  rcases m.run.run c with ⟨_ | _, c'⟩ <;> rfl

theorem Reads.bind {m : Scan α} {f : α → Scan β} {i j k : List Char} {a : α} {b : β}
    (hm : Reads m i j a) (hf : Reads (f a) j k b) : Reads (m >>= f) i k b := by
  intro c hc
  obtain ⟨c₁, h₁, hc₁⟩ := hm c hc
  obtain ⟨c₂, h₂, hc₂⟩ := hf c₁ hc₁
  exact ⟨c₂, by rw [run_bind, h₁]; exact h₂, hc₂⟩

theorem Reads.pure (a : α) (i : List Char) : Reads (Pure.pure a : Scan α) i i a :=
  fun c hc => ⟨c, rfl, hc⟩

theorem Reads.tryCatch {m : Scan α} {handler : Error → Scan α} {i j : List Char} {a : α}
    (h : Reads m i j a) : Reads (tryCatch m handler) i j a := by
  intro c hc
  obtain ⟨c', hrun, hc'⟩ := h c hc
  refine ⟨c', ?_, hc'⟩
  have hrun' : StateT.run m c = (.ok a, c') := hrun
  show (ExceptT.tryCatch m handler).run.run c = _
  simp only [ExceptT.tryCatch, ExceptT.run_mk, StateT.run_bind, hrun']
  rfl

theorem run_attempt_of_ok {m : Scan α} {c c' : Cursor} {a : α} (h : m.run.run c = (.ok a, c')) :
    (attempt m).run.run c = (.ok (.ok a), c') := by
  have hm : m c = (.ok a, c') := h
  -- the early return inside the handler is one more exception layer: unfold it all
  simp only [Scan.attempt, bind, ExceptT.bind, ExceptT.bindCont, ExceptT.mk, ExceptT.run,
    StateT.bind, StateT.run, tryCatch, tryCatchThe, MonadExceptOf.tryCatch, ExceptT.tryCatch, throw,
    throwThe, MonadExceptOf.throw, pure, ExceptT.pure, StateT.pure, EarlyReturnT.return,
    EarlyReturn.runK, hm]

theorem Reads.attempt {m : Scan α} {i j : List Char} {a : α} (h : Reads m i j a) :
    Reads (attempt m) i j (.ok a) := by
  intro c hc
  obtain ⟨c', hrun, hc'⟩ := h c hc
  exact ⟨c', run_attempt_of_ok hrun, hc'⟩

theorem Reads.congr {m : Scan α} {i j : List Char} {a b : α} (h : Reads m i j a) (hab : a = b) :
    Reads m i j b := hab ▸ h

/-! ## Looking and moving -/

theorem reads_head (i : List Char) : Reads head i i i.head? := by
  intro c hc
  refine ⟨c, ?_, hc⟩
  rw [← hc.rest]
  rfl

theorem reads_peek (i : List Char) : Reads peek i i i.head? := by
  rintro ⟨rest, line, column, ahead, reading, left⟩ ⟨hr, hl, hs⟩
  simp only at hr hl hs
  subst hr
  cases rest with
  | nil => exact ⟨_, rfl, ⟨rfl, hl, hs⟩⟩
  | cons ch i => exact ⟨_, rfl, ⟨rfl, hl, hs⟩⟩

theorem reads_peekOrNull (i : List Char) : Reads peekOrNull i i (i.head?.getD '\x00') :=
  (reads_peek i).bind (Reads.pure _ i)

theorem reads_advance (ch : Char) (i : List Char) : Reads advance (ch :: i) i () := by
  rintro ⟨rest, line, column, ahead, reading, left⟩ ⟨hr, hl, hs⟩
  simp only at hr hl hs
  subst hr hl
  refine ⟨_, rfl, ?_⟩
  by_cases h : ch = '\n' <;> exact ⟨by simp [Cursor.advance, h], by simp [Cursor.advance, h],
    by simp [Cursor.advance, h, hs]⟩

theorem reads_budget (i : List Char) : Reads budget i i (i.length + 1) := by
  intro c hc
  refine ⟨c, ?_, hc⟩
  rw [← hc.left]
  rfl

/-! ## Blanks -/

/-- The characters a reader skips between tokens. -/
def IsSpace (c : Char) : Prop := c = ' ' ∨ c = '\n' ∨ c = '\t' ∨ c = '\r'

/-- Text made of blanks only, such as the indentation of pretty text. -/
def Blank (cs : List Char) : Prop := ∀ c ∈ cs, IsSpace c

/-- **Blanks are skipped.**  With enough fuel, skipping blanks reads every blank up to the
first character that is not one, and looks at that character. -/
theorem reads_skipBlanks {ws rest : List Char} (hws : Blank ws)
    (hrest : ∀ c ∈ rest.head?, ¬ IsSpace c) :
    ∀ fuel, ws.length ≤ fuel → Reads (skipBlanks fuel) (ws ++ rest) rest rest.head? := by
  induction ws with
  | nil =>
    intro fuel _
    cases fuel with
    | zero => exact reads_peek rest
    | succ fuel =>
      rw [skipBlanks]
      refine (reads_peek _).bind ?_
      cases rest with
      | nil => exact Reads.pure _ _
      | cons c rest =>
        -- the character looked at is not a blank, so it is handed back
        have hc : ¬ IsSpace c := hrest c rfl
        simp only [IsSpace, not_or] at hc
        obtain ⟨h₁, h₂, h₃, h₄⟩ := hc
        split
        · rename_i h; cases h; exact absurd rfl h₁
        · rename_i h; cases h; exact absurd rfl h₂
        · rename_i h; cases h; exact absurd rfl h₃
        · rename_i h; cases h; exact absurd rfl h₄
        · exact Reads.pure _ _
  | cons w ws ih =>
    intro fuel hlen
    obtain ⟨fuel, rfl⟩ : ∃ f, fuel = f + 1 := ⟨fuel - 1, by simp at hlen; omega⟩
    have hnext := ih (fun c hc => hws c (List.mem_cons_of_mem _ hc)) fuel (by simpa using hlen)
    rw [skipBlanks]
    refine (reads_peek _).bind ?_
    -- the blank looked at is read, and the rest skipped
    rcases hws w List.mem_cons_self with rfl | rfl | rfl | rfl <;>
      exact (reads_advance _ _).bind hnext

theorem reads_blanks {ws rest : List Char} (hws : Blank ws)
    (hrest : ∀ c ∈ rest.head?, ¬ IsSpace c) : Reads blanks (ws ++ rest) rest rest.head? := by
  intro c hc
  have h := reads_skipBlanks hws hrest ((ws ++ rest).length + 1) (by simp; omega) c hc
  obtain ⟨c', hrun, hc'⟩ := h
  refine ⟨c', ?_, hc'⟩
  rw [← hrun, ← hc.left]
  rfl

/-! ## Decimal words -/

/-- What may follow a number: no digit, no fraction point and no exponent mark. -/
def EndsNumber (rest : List Char) : Prop :=
  ∀ c ∈ rest.head?, isDigit c = false ∧ c ≠ '.' ∧ c ≠ 'e' ∧ c ≠ 'E'

/-- The digits of a number below ten: a digit of that value, `0` only for zero. -/
theorem digitChar_facts {d : Nat} (hd : d < 10) :
    isDigit d.digitChar = true ∧ digitValue d.digitChar = d ∧
      (d.digitChar = '0' → d = 0) := by
  interval_cases d <;> decide

/-- **The writer's digits.**  `Nat.toDigits 10 n` is a string of decimal digits whose value,
read left to right, is `n`, and whose first digit is `0` only for `n = 0`. -/
theorem toDigits_facts (n : Nat) :
    (∀ c ∈ Nat.toDigits 10 n, isDigit c = true) ∧
      (Nat.toDigits 10 n).foldl (fun a c => a * 10 + digitValue c) 0 = n ∧
      ∀ c ds, Nat.toDigits 10 n = c :: ds → c = '0' → n = 0 := by
  induction n using Nat.strong_induction_on with
  | _ n ih =>
    by_cases hn : n < 10
    · obtain ⟨hdig, hval, hzero⟩ := digitChar_facts hn
      rw [Nat.toDigits_of_lt_base hn]
      refine ⟨by simpa using hdig, by simpa using hval, ?_⟩
      intro c ds h hc
      simp only [List.cons.injEq] at h
      exact hzero (h.1 ▸ hc)
    · -- the digits of `n / 10`, then the last digit
      have hpos : 0 < n / 10 := Nat.div_pos (by omega) (by decide)
      have hsplit : Nat.toDigits 10 n = Nat.toDigits 10 (n / 10) ++ [(n % 10).digitChar] := by
        rw [← Nat.toDigits_of_lt_base (Nat.mod_lt n (by decide)),
          Nat.toDigits_append_toDigits (by decide) hpos (Nat.mod_lt n (by decide)),
          Nat.div_add_mod]
      obtain ⟨hdig, hval, hzero⟩ := ih (n / 10) (Nat.div_lt_self (by omega) (by decide))
      obtain ⟨hdig', hval', -⟩ := digitChar_facts (Nat.mod_lt n (by decide : 10 > 0))
      rw [hsplit]
      refine ⟨?_, ?_, ?_⟩
      · intro c hc
        rcases List.mem_append.1 hc with hc | hc
        · exact hdig c hc
        · rw [List.mem_singleton.1 hc]; exact hdig'
      · rw [List.foldl_append, hval]
        simp only [List.foldl_cons, List.foldl_nil, hval']
        omega
      · intro c ds h hc
        -- the first digit is that of `n / 10`, which is not zero
        obtain ⟨c', ds', h'⟩ :=
          List.exists_cons_of_ne_nil (Nat.toDigits_ne_nil (n := n / 10) (b := 10))
        rw [h', List.cons_append, List.cons.injEq] at h
        exact absurd (hzero c' ds' h' (h.1 ▸ hc)) (by omega)

theorem digitValue_lt_ten {c : Char} (h : isDigit c = true) : digitValue c < 10 := by
  simp only [isDigit, Bool.and_eq_true, decide_eq_true_eq] at h
  have hle : c.toNat ≤ '9'.toNat := h.2
  have h9 : ('9' : Char).toNat = 57 := rfl
  simp only [digitValue]
  omega

theorem le_foldl_digits (ds : List Char) (acc : Nat) :
    acc ≤ ds.foldl (fun a c => a * 10 + digitValue c) acc := by
  induction ds generalizing acc with
  | nil => exact Nat.le_refl _
  | cons d ds ih =>
    have := ih (acc * 10 + digitValue d)
    simp only [List.foldl_cons]
    omega

theorem reads_numberTail {rest : List Char} (hend : EndsNumber rest) (n : Nat) :
    Reads (numberTail true n) rest rest (.unsigned n.toUInt64) := by
  rw [numberTail]
  refine (reads_peekOrNull rest).bind ?_
  cases rest with
  | nil => exact Reads.pure _ _
  | cons c rest =>
    -- what follows neither continues the number nor starts a fraction or an exponent
    obtain ⟨-, h₁, h₂, h₃⟩ := hend c rfl
    simp only [List.head?_cons, Option.getD_some, if_true]
    exact Reads.pure _ _

/-- Digits read onto an accumulator that never leaves the word range. -/
theorem reads_integerDigits {rest : List Char} (hend : EndsNumber rest) :
    ∀ (ds : List Char) (acc fuel : Nat), (∀ c ∈ ds, isDigit c = true) →
      ds.length ≤ fuel →
      ds.foldl (fun a c => a * 10 + digitValue c) acc ≤ wordMax →
      Reads (integerDigits true acc fuel) (ds ++ rest) rest
        (.unsigned (ds.foldl (fun a c => a * 10 + digitValue c) acc).toUInt64)
  | [], acc, fuel, _, _, _ => by
    cases fuel with
    | zero => exact reads_numberTail hend acc
    | succ fuel =>
      rw [integerDigits]
      refine (reads_peekOrNull _).bind ?_
      have hnd : isDigit ((([] : List Char) ++ rest).head?.getD '\x00') = false := by
        cases rest with
        | nil => rfl
        | cons c rest => exact (hend c rfl).1
      simp only [hnd, Bool.false_eq_true, if_false]
      exact reads_numberTail hend acc
  | d :: ds, acc, fuel, hds, hlen, hmax => by
    obtain ⟨fuel, rfl⟩ : ∃ f, fuel = f + 1 := ⟨fuel - 1, by simp at hlen; omega⟩
    have hd := hds d List.mem_cons_self
    -- the value so far never passes the largest word, so the digit is taken
    have hle := le_foldl_digits ds (acc * 10 + digitValue d)
    have hdv := digitValue_lt_ten hd
    have hno :
        ¬ (acc > wordMax / 10 ∨ (acc = wordMax / 10 ∧ digitValue d > wordMax % 10)) := by
      simp only [List.foldl_cons] at hmax
      simp only [wordMax, Nat.pow_eq] at hmax ⊢
      omega
    rw [integerDigits]
    refine (reads_peekOrNull _).bind ?_
    rw [List.cons_append, List.head?_cons, Option.getD_some, if_pos hd, if_neg hno]
    exact (reads_advance _ _).bind
      (reads_integerDigits hend ds _ fuel (fun c hc => hds c (List.mem_cons_of_mem _ hc))
        (by simpa using hlen) (by simpa using hmax))

/-- **A word reads back.**  The decimal digits of a number up to the largest word, followed by
anything that cannot continue a number, read as that number. -/
theorem reads_number_digits {rest : List Char} (hend : EndsNumber rest) (n : Nat)
    (hn : n ≤ wordMax) :
    Reads (number true) (Nat.toDigits 10 n ++ rest) rest (.unsigned n.toUInt64) := by
  obtain ⟨hdig, hval, hzero⟩ := toDigits_facts n
  obtain ⟨c, ds, hcs⟩ := List.exists_cons_of_ne_nil (Nat.toDigits_ne_nil (n := n) (b := 10))
  rw [hcs] at hdig hval
  rw [hcs, number]
  refine (reads_head _).bind ?_
  by_cases hc0 : c = '0'
  · -- a leading `0` is the whole number zero
    subst hc0
    obtain rfl := hzero '0' ds hcs rfl
    have hds : ds = [] := by
      have : Nat.toDigits 10 0 = ['0'] := by decide
      rw [this, List.cons.injEq] at hcs
      exact hcs.2.symm
    subst hds
    simp only [List.cons_append, List.nil_append, List.head?_cons]
    refine (reads_advance _ _).bind ((reads_peekOrNull _).bind ?_)
    have hnd : isDigit (rest.head?.getD '\x00') = false := by
      cases rest with
      | nil => rfl
      | cons c rest => exact (hend c rfl).1
    simp only [hnd, Bool.false_eq_true, if_false]
    exact reads_numberTail hend 0
  · have hc : isDigit c = true := hdig c List.mem_cons_self
    simp only [List.cons_append, List.head?_cons, hc, if_true]
    refine (reads_advance _ _).bind ((reads_budget _).bind ?_)
    have hval' : ds.foldl (fun a c => a * 10 + digitValue c) (digitValue c) = n := by
      rw [← hval, List.foldl_cons, Nat.zero_mul, Nat.zero_add]
    have hread := reads_integerDigits hend ds (digitValue c) ((ds ++ rest).length + 1)
      (fun x hx => hdig x (List.mem_cons_of_mem _ hx)) (by simp; omega) (hval' ▸ hn)
    rw [hval'] at hread
    exact hread

/-- **A word reads back.**  The decimal text of a word, followed by anything that cannot
continue a number, reads as that word: `2 ^ 64 - 1` included. -/
theorem reads_word {rest : List Char} (hend : EndsNumber rest) (n : UInt64) :
    Reads (number true) ((toString n.toNat).toList ++ rest) rest (.unsigned n) := by
  have h := reads_number_digits hend n.toNat (by have := n.toNat_lt; simp only [wordMax, Nat.pow_eq]; omega)
  rw [Nat.toString_eq_repr, Nat.repr_eq_ofList_toDigits, String.toList_ofList]
  exact h.congr (by rw [Nat.toUInt64_eq, UInt64.ofNat_toNat])

/-! ## Strings -/

theorem hexValue_hexDigit {k : Nat} (hk : k < 16) : hexValue (Json.hexDigit k) = some k := by
  interval_cases k <;> decide

theorem reads_hexStream_cons {d : Char} {v n acc r : Nat} {i j : List Char}
    (hd : hexValue d = some v) (h : Reads (hexStream n (acc * 16 + v)) i j r) :
    Reads (hexStream (n + 1) acc) (d :: i) j r := by
  rw [hexStream]
  refine (reads_head _).bind ?_
  simp only [List.head?_cons, hd]
  exact (reads_advance _ _).bind h

theorem reads_hexEscape {i j : List Char} {r : Nat} (h : Reads (hexStream 4 0) i j r) :
    Reads hexEscape i j r := by
  intro c hc
  obtain ⟨c', hrun, hc'⟩ := h c hc
  refine ⟨c', ?_, hc'⟩
  have hget : (get : Scan Cursor).run.run c = (.ok c, c) := rfl
  rw [hexEscape, run_bind, hget]
  simp only [hc.stream]
  exact hrun

/-- The `\u00XX` escape of a control character reads back as that character. -/
theorem reads_unicodeEscape {c : Char} (hc : c.toNat < 32) (i : List Char) :
    Reads unicodeEscape
      (['0', '0', Json.hexDigit (c.toNat / 16), Json.hexDigit (c.toNat % 16)] ++ i) i c := by
  have hhex : Reads (hexStream 4 0)
      (['0', '0', Json.hexDigit (c.toNat / 16), Json.hexDigit (c.toNat % 16)] ++ i) i c.toNat := by
    refine reads_hexStream_cons (show hexValue '0' = some 0 by decide)
      (reads_hexStream_cons (show hexValue '0' = some 0 by decide)
      (reads_hexStream_cons (hexValue_hexDigit (by omega))
        (reads_hexStream_cons (hexValue_hexDigit (by omega)) ?_)))
    exact (Reads.pure _ _).congr (by omega)
  rw [unicodeEscape]
  refine (reads_hexEscape hhex).bind ?_
  rw [if_neg (by omega), if_neg (by omega)]
  exact (Reads.pure _ _).congr (Char.ofNat_toNat c)

/-- How `escapeChar` writes a character: as itself, or as an escape after a backslash. -/
theorem escapeChar_cases (c : Char) :
    (escapeChar c = [c] ∧ c ≠ '"' ∧ c ≠ '\\' ∧ ¬ c.toNat < 32) ∨
      ∃ e, escapeChar c = '\\' :: e := by
  unfold escapeChar
  split_ifs <;> simp_all

theorem escapeChar_ne_nil (c : Char) : escapeChar c ≠ [] := by
  rcases escapeChar_cases c with ⟨h, -⟩ | ⟨e, h⟩ <;> simp [h]

/-- **Escapes read back.**  What follows the backslash of an escaped character reads back as
that character: the two-letter escapes and the `\u00XX` form of the other control
characters. -/
theorem reads_escape_of {c : Char} {e : List Char} (h : escapeChar c = '\\' :: e)
    (i : List Char) : Reads escape (e ++ i) i c := by
  unfold escapeChar at h
  rw [escape]
  refine (reads_head _).bind ?_
  split_ifs at h with h₁ h₂ h₃ h₄ h₅ h₆ h₇ h₈ <;>
    simp only [List.cons.injEq, true_and] at h
  · subst h h₁; exact (reads_advance _ _).bind (Reads.pure _ _)
  · subst h h₂; exact (reads_advance _ _).bind (Reads.pure _ _)
  · subst h h₃; exact (reads_advance _ _).bind (Reads.pure _ _)
  · subst h h₄; exact (reads_advance _ _).bind (Reads.pure _ _)
  · subst h h₅; exact (reads_advance _ _).bind (Reads.pure _ _)
  · subst h
    exact (reads_advance _ _).bind ((Reads.pure _ _).congr (by rw [← h₆, Char.ofNat_toNat]))
  · subst h
    exact (reads_advance _ _).bind ((Reads.pure _ _).congr (by rw [← h₇, Char.ofNat_toNat]))
  · subst h
    exact (reads_advance _ _).bind (reads_unicodeEscape h₈ i)
  · -- a character written as itself is no backslash
    exact absurd h.1 h₂

/-- One character of a string, written by `escapeChar`, is read onto the accumulator. -/
theorem reads_stringChars_step {c : Char} {fuel : Nat} {acc i rest : List Char} {s : String}
    (h : Reads (stringChars fuel (c :: acc)) i rest s) :
    Reads (stringChars (fuel + 1) acc) (escapeChar c ++ i) rest s := by
  rw [stringChars]
  rcases escapeChar_cases c with ⟨he, hq, hb, hctl⟩ | ⟨e, he⟩
  · -- a character written as itself
    rw [he]
    refine (reads_head _).bind ?_
    simp only [List.singleton_append, List.head?_cons]
    refine (reads_advance _ _).bind ?_
    rw [if_neg hq, if_neg hb, if_neg hctl]
    exact h
  · -- a backslash, then the escape
    rw [he]
    refine (reads_head _).bind ?_
    simp only [List.cons_append, List.head?_cons]
    refine (reads_advance _ _).bind ?_
    rw [if_pos trivial]
    exact (reads_escape_of he i).bind h

theorem reads_stringChars {rest : List Char} :
    ∀ (cs acc : List Char) (fuel : Nat), cs.length < fuel →
      Reads (stringChars fuel acc) (cs.flatMap escapeChar ++ '"' :: rest) rest
        (String.ofList (acc.reverse ++ cs))
  | [], acc, fuel + 1, _ => by
    rw [stringChars]
    refine (reads_head _).bind ?_
    simp only [List.flatMap_nil, List.nil_append, List.head?_cons, List.append_nil]
    exact (reads_advance _ _).bind (by rw [if_pos trivial]; exact Reads.pure _ _)
  | c :: cs, acc, fuel + 1, hlen => by
    rw [List.flatMap_cons, List.append_assoc]
    refine reads_stringChars_step ((reads_stringChars cs (c :: acc) fuel ?_).congr ?_)
    · simp only [List.length_cons] at hlen
      omega
    · simp

theorem length_le_flatMap_escapeChar (cs : List Char) :
    cs.length ≤ (cs.flatMap escapeChar).length := by
  induction cs with
  | nil => exact Nat.le_refl _
  | cons c cs ih =>
    have := List.length_pos_iff.2 (escapeChar_ne_nil c)
    simp only [List.length_cons, List.flatMap_cons, List.length_append]
    omega

/-- **A string reads back.**  After its opening quote, the text `Json.quote` writes for a
string reads back as that string: quotes, backslashes, control characters and characters
beyond the basic plane included. -/
theorem reads_string (s : String) (rest : List Char) :
    Reads string (s.toList.flatMap escapeChar ++ '"' :: rest) rest s := by
  rw [string]
  refine (reads_budget _).bind ((reads_stringChars s.toList [] _ ?_).congr (by simp))
  have := length_le_flatMap_escapeChar s.toList
  simp only [List.length_append, List.length_cons]
  omega

theorem quote_toList (s : String) :
    (quote s).toList = '"' :: (s.toList.flatMap escapeChar ++ ['"']) := by
  simp [quote]

/-! ## Punctuation -/

/-- What stands before a member or an element on its line: nothing before the first, a comma
before each other one. -/
def separator (first : Bool) : List Char := if first then [] else [',']

theorem reads_nextElement_open {first : Bool} {ws cs : List Char} {c : Char}
    (hws : Blank ws) (hc : ¬ IsSpace c) (hclose : c ≠ ']') :
    Reads (nextElement first) (separator first ++ (ws ++ c :: cs)) (c :: cs) true := by
  unfold nextElement
  cases first with
  | true =>
    refine (reads_blanks hws (by simpa using hc)).bind ?_
    by_cases hcomma : c = ','
    · subst hcomma
      exact Reads.pure _ _
    · simp only [List.head?_cons, if_true]
      exact Reads.pure _ _
  | false =>
    -- the comma is looked at, read, and the blanks after it skipped
    refine (reads_blanks (show Blank [] by simp [Blank]) (by simp [IsSpace])).bind ?_
    simp only [List.head?_cons, Bool.false_eq_true, if_false]
    refine (reads_advance _ _).bind ((reads_blanks hws (by simpa using hc)).bind ?_)
    simp only [List.head?_cons]
    exact Reads.pure _ _

theorem reads_nextElement_close {first : Bool} {ws rest : List Char} (hws : Blank ws) :
    Reads (nextElement first) (ws ++ ']' :: rest) (']' :: rest) false := by
  unfold nextElement
  refine (reads_blanks hws (by simp [IsSpace])).bind ?_
  exact Reads.pure _ _

theorem reads_nextMember_open {first : Bool} {ws cs : List Char} (hws : Blank ws) :
    Reads (nextMember first) (separator first ++ (ws ++ '"' :: cs)) ('"' :: cs) true := by
  unfold nextMember
  cases first with
  | true =>
    refine (reads_blanks hws (by simp [IsSpace])).bind ?_
    simp only [List.head?_cons, if_true]
    exact (Reads.pure _ _).bind (Reads.pure _ _)
  | false =>
    refine (reads_blanks (show Blank [] by simp [Blank]) (by simp [IsSpace])).bind ?_
    simp only [List.head?_cons, Bool.false_eq_true, if_false]
    refine (reads_advance _ _).bind ((reads_blanks hws (by simp [IsSpace])).bind ?_)
    exact Reads.pure _ _

theorem reads_nextMember_close {first : Bool} {ws rest : List Char} (hws : Blank ws) :
    Reads (nextMember first) (ws ++ '\x7d' :: rest) ('\x7d' :: rest) false := by
  unfold nextMember
  refine (reads_blanks hws (by simp [IsSpace])).bind ?_
  exact Reads.pure _ _

theorem reads_colon {ws rest : List Char} (hws : Blank ws) :
    Reads colon (ws ++ ':' :: rest) rest () := by
  unfold colon
  refine (reads_blanks hws (by simp [IsSpace])).bind ?_
  exact reads_advance _ _

theorem reads_closeList {ws rest : List Char} (hws : Blank ws) :
    Reads closeList (ws ++ ']' :: rest) rest () := by
  unfold closeList
  refine (reads_blanks hws (by simp [IsSpace])).bind ?_
  exact reads_advance _ _

theorem reads_closeObject {ws rest : List Char} (hws : Blank ws) :
    Reads closeObject (ws ++ '\x7d' :: rest) rest () := by
  unfold closeObject
  refine (reads_blanks hws (by simp [IsSpace])).bind ?_
  exact reads_advance _ _

theorem reads_finish {ws : List Char} (hws : Blank ws) : Reads finish ws [] () := by
  unfold finish
  have h := reads_blanks hws (show ∀ c ∈ ([] : List Char).head?, ¬ IsSpace c by simp)
  rw [List.append_nil] at h
  exact h.bind (Reads.pure _ _)

end Scan

end Json

end Bourse
