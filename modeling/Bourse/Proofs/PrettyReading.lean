import Bourse.Proofs.Reading
import Bourse.Decode.Text

/-!
# Reading pretty JSON back against a shape

`Value.prettyAt` writes a value with two more spaces of indentation at each level, and
`Decode.datum` reads text against a shape. `ReadsPretty shape v d` says that the pretty text
of `v`, at every indentation, after any blanks and before anything that cannot continue a
number, is read back as the datum `d`, given fuel above its length.

One lemma per shape builds such a reading from the readings of the parts:

* `readsPretty_word`, `readsPretty_text` and `readsPretty_tag` for scalars;
* `readsPretty_many` for a list, from the readings of its elements;
* `readsPretty_byPrice` for a map keyed by prices in decimal, the keys ascending;
* `readsPretty_record` for a record written as an object with its fields in order, their
  names distinct;

and `text_pretty` turns a reading into the decoding of a whole pretty text.
-/

namespace Bourse

namespace Decode

open Json Json.Scan

/-! ## Layout of pretty text -/

/-- Items laid out one per line, each after a line feed and the indentation `ws`, every one
but the first after a comma: the text between the brackets of a pretty list or object. -/
def lines (ws : List Char) : Bool → List (List Char) → List Char
  | _, [] => []
  | first, t :: ts => separator first ++ '\n' :: ws ++ t ++ lines ws false ts

theorem toList_intercalate_lines (ws : String) (f : α → String) (x : α) (xs : List α) :
    (",\n".intercalate ((ws ++ f x) :: xs.map fun y => ws ++ f y)).toList =
      ws.toList ++ (f x).toList ++ lines ws.toList false (xs.map fun y => (f y).toList) := by
  induction xs generalizing x with
  | nil => simp [lines]
  | cons y ys ih =>
    rw [List.map_cons, String.intercalate_cons_cons, String.toList_append, String.toList_append, ih]
    simp [lines, separator]

theorem prettyAt_array (ind : String) (vs : List Value) :
    ((Value.array vs).prettyAt ind).toList =
      '[' :: lines (ind ++ "  ").toList true (vs.map fun v => (v.prettyAt (ind ++ "  ")).toList) ++
        (if vs = [] then [] else '\n' :: ind.toList) ++ [']'] := by
  cases vs with
  | nil => rw [Value.prettyAt.eq_1]; rfl
  | cons v vs =>
    rw [Value.prettyAt.eq_3 _ _ (by simp)]
    have h := toList_intercalate_lines (ind ++ "  ") (fun v => v.prettyAt (ind ++ "  ")) v vs
    simp only [List.attach_cons, List.map_cons, List.map_map, Function.comp_def]
    simp only [List.map_subtype, List.unattach_attach, String.toList_append, h]
    simp [lines, separator]

/-- The line of a member of a pretty object, after its indentation `ind`. -/
def memberText (ind : String) (m : String × Value) : List Char :=
  (quote m.1).toList ++ ':' :: ' ' :: (m.2.prettyAt ind).toList

theorem length_memberText (ind : String) (m : String × Value) :
    (memberText ind m).length =
      (quote m.1).toList.length + 2 + (m.2.prettyAt ind).toList.length := by
  simp [memberText]
  omega

theorem prettyAt_object (ind : String) (ms : List (String × Value)) :
    ((Value.object ms).prettyAt ind).toList =
      '\x7b' :: lines (ind ++ "  ").toList true (ms.map fun m => memberText (ind ++ "  ") m) ++
        (if ms = [] then [] else '\n' :: ind.toList) ++ ['\x7d'] := by
  cases ms with
  | nil => rw [Value.prettyAt.eq_2]; rfl
  | cons m ms =>
    rw [Value.prettyAt.eq_4 _ _ (by simp)]
    have h := toList_intercalate_lines (ind ++ "  ")
      (fun m : String × Value => quote m.1 ++ ": " ++ m.2.prettyAt (ind ++ "  ")) m ms
    simp only [String.append_assoc] at h
    simp only [List.attach_cons, List.map_cons, List.map_map, Function.comp_def]
    simp only [List.map_subtype, List.unattach_attach, String.append_assoc, String.toList_append, h]
    simp [lines, separator, memberText]

theorem prettyAt_number (ind : String) (x : Number) : (Value.number x).prettyAt ind = x.text := by
  rw [Value.prettyAt.eq_5 _ _ (by simp) (by simp) (by simp) (by simp), Value.compact.eq_4]

theorem prettyAt_word (ind : String) (n : UInt64) :
    (Value.word n).prettyAt ind = toString n.toNat :=
  prettyAt_number ind (.unsigned n)

theorem prettyAt_string (ind s : String) : (Value.string s).prettyAt ind = quote s := by
  rw [Value.prettyAt.eq_5 _ _ (by simp) (by simp) (by simp) (by simp), Value.compact.eq_5]

theorem not_isSpace_of_isDigit {c : Char} (h : isDigit c = true) : ¬ IsSpace c := by
  rintro (rfl | rfl | rfl | rfl) <;> revert h <;> decide

/-- The decimal text of a word opens with a digit. -/
theorem wordText_cons (n : UInt64) :
    ∃ c cs, (toString n.toNat).toList = c :: cs ∧ isDigit c = true := by
  obtain ⟨hdig, -, -⟩ := toDigits_facts n.toNat
  rw [Nat.toString_eq_repr, Nat.repr_eq_ofList_toDigits, String.toList_ofList]
  obtain ⟨c, cs, h⟩ := List.exists_cons_of_ne_nil (Nat.toDigits_ne_nil (n := n.toNat) (b := 10))
  exact ⟨c, cs, h, hdig c (by rw [h]; exact List.mem_cons_self)⟩

/-! ## Readings of pretty text -/

/-- The pretty text of `v` reads back as `d` against `shape`: it opens with a character that
is neither blank nor a closing bracket, and at every indentation made of blanks, after any
blanks and before anything that cannot continue a number, `datum` reads it as `d` with any
fuel above its length. -/
structure ReadsPretty (shape : Shape) (v : Value) (d : Datum) : Prop where
  opens : ∀ ind, ∃ c cs, (v.prettyAt ind).toList = c :: cs ∧ ¬ IsSpace c ∧ c ≠ ']'
  reads : ∀ ind ws rest fuel, Blank ind.toList → Blank ws → EndsNumber rest →
    (v.prettyAt ind).length < fuel →
      Reads (datum fuel shape) (ws ++ (v.prettyAt ind).toList ++ rest) rest d

/-- The blanks before a value are skipped, and its first character looked at. -/
theorem reads_blanks_before {ws text rest : List Char} {c : Char} {cs : List Char}
    (hws : Blank ws) (htext : text = c :: cs) (hc : ¬ IsSpace c) :
    Reads blanks (ws ++ text ++ rest) (text ++ rest) (some c) := by
  rw [List.append_assoc]
  refine (reads_blanks hws ?_).congr ?_
  · subst htext
    simpa using hc
  · simp [htext]

/-- With no blanks before it, a value's first character is only looked at. -/
theorem reads_blanks_at {text rest : List Char} {c : Char} {cs : List Char}
    (htext : text = c :: cs) (hc : ¬ IsSpace c) :
    Reads blanks (text ++ rest) (text ++ rest) (some c) := by
  have h : Reads blanks ([] ++ text ++ rest) (text ++ rest) (some c) :=
    reads_blanks_before (show Blank [] by simp [Blank]) htext hc
  rwa [List.nil_append] at h

theorem readsPretty_word (n : UInt64) : ReadsPretty .word (.word n) (.word n) := by
  obtain ⟨c, cs, htext, hdigit⟩ := wordText_cons n
  refine ⟨fun ind => ⟨c, cs, ?_, not_isSpace_of_isDigit hdigit, ?_⟩,
    fun ind ws rest fuel _ hws hend hlen => ?_⟩
  · rw [prettyAt_word]
    exact htext
  · rintro rfl
    revert hdigit
    decide
  · rw [prettyAt_word] at hlen ⊢
    obtain ⟨fuel, rfl⟩ : ∃ f, fuel = f + 1 := ⟨fuel - 1, by omega⟩
    rw [datum]
    refine (reads_blanks_before hws htext (not_isSpace_of_isDigit hdigit)).bind ?_
    have hminus : c ≠ '-' := by
      rintro rfl
      revert hdigit
      decide
    simp only
    rw [if_neg hminus, if_pos hdigit]
    refine (reads_word hend n).bind ?_
    exact Reads.pure _ _

theorem quote_opens (s : String) :
    ∃ c cs, (quote s).toList = c :: cs ∧ ¬ IsSpace c ∧ c ≠ ']' :=
  ⟨'"', _, quote_toList s, by simp [IsSpace], by decide⟩

/-- A string in quotes is read past its opening quote, then the reading goes on from what
follows the closing quote with the string read. -/
theorem reads_quoted {f : String → Scan α} {s : String} {rest j : List Char} {a : α}
    (hf : Reads (f s) rest j a) :
    Reads (do advance; let t ← string; f t) ((quote s).toList ++ rest) j a := by
  rw [quote_toList, List.cons_append, List.append_assoc, List.singleton_append]
  exact (reads_advance _ _).bind ((reads_string s rest).bind hf)

theorem readsPretty_text (s : String) : ReadsPretty .text (.string s) (.text s) := by
  refine ⟨fun ind => by rw [prettyAt_string]; exact quote_opens s,
    fun ind ws rest fuel _ hws _ hlen => ?_⟩
  rw [prettyAt_string] at hlen ⊢
  obtain ⟨fuel, rfl⟩ : ∃ f, fuel = f + 1 := ⟨fuel - 1, by omega⟩
  rw [datum]
  refine (reads_blanks_before hws (quote_toList s) (by simp [IsSpace])).bind ?_
  simp only
  exact reads_quoted (Reads.pure _ _)

theorem reads_tagName {names : List String} {name : String} {i : Nat}
    (h : indexOf names name = some i) (rest : List Char) :
    Reads (tagName names) ((quote name).toList ++ rest) rest i := by
  rw [tagName]
  refine (reads_blanks_at (quote_toList name) (by simp [IsSpace])).bind ?_
  simp only
  refine reads_quoted ?_
  simp only [h]
  exact Reads.pure _ _

/-- A tag written as its name reads as the index of that name. -/
theorem readsPretty_tag {tname name : String} {names : List String} {i : Nat}
    (h : indexOf names name = some i) : ReadsPretty (.tag tname names) (.string name) (.tag i) := by
  refine ⟨fun ind => by rw [prettyAt_string]; exact quote_opens name,
    fun ind ws rest fuel _ hws _ hlen => ?_⟩
  rw [prettyAt_string] at hlen ⊢
  obtain ⟨fuel, rfl⟩ : ∃ f, fuel = f + 1 := ⟨fuel - 1, by omega⟩
  rw [datum]
  refine (reads_blanks_before hws (quote_toList name) (by simp [IsSpace])).bind ?_
  simp only
  exact (reads_tagName h rest).bind (Reads.pure _ _)

/-! ## Brackets -/

theorem Reads.within {seg : Segment} {m : Scan α} {i j : List Char} {a : α} (h : Reads m i j a) :
    Reads (within seg m) i j a :=
  Reads.tryCatch h

theorem reads_bracketed {body : Scan α} {close : Scan Unit} {i j k : List Char} {a : α}
    (hb : Reads body i j a) (hc : Reads close j k ()) : Reads (bracketed body close) i k a := by
  unfold bracketed
  exact hb.attempt.bind (hc.attempt.bind (Reads.pure _ _))

/-- A bracket is read past its opening, its body up to the closing bracket, which is then
closed, and the datum is made of what the body gave. -/
theorem reads_opened {body : Scan β} {close : Scan Unit} {g : β → Datum} {o c : Char}
    {inner rest : List Char} {b : β} (hbody : Reads body (inner ++ c :: rest) (c :: rest) b)
    (hclose : Reads close (c :: rest) rest ()) :
    Reads (do advance; let x ← bracketed body close; pure (g x)) (o :: (inner ++ [c] ++ rest))
      rest (g b) := by
  refine (reads_advance _ _).bind ?_
  rw [List.append_assoc, List.singleton_append]
  exact (reads_bracketed hbody hclose).bind (Reads.pure _ _)

/-- A line feed and an indentation: the blanks that open a line of pretty text. -/
theorem blank_newline {ind : List Char} (hind : Blank ind) : Blank ('\n' :: ind) := by
  intro c hc
  rcases List.mem_cons.1 hc with rfl | hc
  · simp [IsSpace]
  · exact hind c hc

theorem blank_closing (ind : String) (hind : Blank ind.toList) (empty : Prop) [Decidable empty] :
    Blank (if empty then [] else '\n' :: ind.toList) := by
  split
  · simp [Blank]
  · exact blank_newline hind

theorem blank_indent {ind : String} (hind : Blank ind.toList) : Blank (ind ++ "  ").toList := by
  intro c hc
  rw [String.toList_append, List.mem_append] at hc
  rcases hc with hc | hc
  · exact hind c hc
  · simp at hc
    simp [hc, IsSpace]

/-- What follows an item inside a bracket cannot continue a number: a comma, or blanks and the
closing bracket. -/
theorem endsNumber_lines {ws tail rest : List Char} {c : Char} (htail : Blank tail)
    (hc : EndsNumber (c :: rest)) (ts : List (List Char)) :
    EndsNumber (lines ws false ts ++ tail ++ c :: rest) := by
  cases ts with
  | cons t ts => simp [EndsNumber, lines, separator]; decide
  | nil =>
    cases tail with
    | nil => exact hc
    | cons b tail =>
      intro x hx
      simp only [lines, List.nil_append, List.cons_append, List.head?_cons, Option.mem_def,
        Option.some.injEq] at hx
      subst hx
      rcases htail _ List.mem_cons_self with h | h | h | h <;> rw [h] <;> decide

theorem length_lines_cons (ws : List Char) (first : Bool) (t : List Char) (ts : List (List Char)) :
    (lines ws first (t :: ts)).length =
      (separator first).length + 1 + ws.length + t.length + (lines ws false ts).length := by
  simp [lines]
  omega

/-! ## Lists -/

/-- The elements of a pretty list are read one by one up to the closing bracket; the loop
keeps the data read so far, reversed, and its fuel above the length of the text left. -/
theorem reads_items {inner : Shape} {ind : String} (hind : Blank ind.toList)
    {tail : List Char} (htail : Blank tail) (rest : List Char) :
    ∀ (vds : List (Value × Datum)) (i : Nat) (acc : List Datum) (fuel : Nat),
      (∀ p ∈ vds, ReadsPretty inner p.1 p.2) →
      (lines ind.toList (decide (i = 0)) (vds.map fun p => (p.1.prettyAt ind).toList)).length <
        fuel →
      Reads (datum.items fuel inner i acc)
        (lines ind.toList (decide (i = 0)) (vds.map fun p => (p.1.prettyAt ind).toList) ++ tail ++
          ']' :: rest)
        (']' :: rest) (acc.reverse ++ vds.map (·.2))
  | [], i, acc, fuel + 1, _, _ => by
    rw [datum.items]
    refine (reads_nextElement_close htail).bind ?_
    simpa using Reads.pure acc.reverse (']' :: rest)
  | (v, d) :: vds, i, acc, fuel + 1, h, hlen => by
    obtain ⟨c, cs, htext, hc, hclose⟩ := (h (v, d) List.mem_cons_self).opens ind
    have hend : EndsNumber (lines ind.toList false (vds.map fun p => (p.1.prettyAt ind).toList) ++
        tail ++ ']' :: rest) :=
      endsNumber_lines htail (by simp [EndsNumber]; decide) _
    have hread := (h (v, d) List.mem_cons_self).reads ind [] _ fuel hind (by simp [Blank]) hend
    simp only [List.map_cons, length_lines_cons] at hlen hread htext
    have hfuel : (v.prettyAt ind).length < fuel := by rw [← String.length_toList]; omega
    have ih := reads_items hind htail rest vds (i + 1) (d :: acc) fuel
      (fun p hp => h p (List.mem_cons_of_mem _ hp))
      (by simp only [Nat.add_one_ne_zero, decide_false]; omega)
    rw [htext] at hread
    simp only [Nat.add_one_ne_zero, decide_false, List.append_assoc] at ih
    simp only [List.append_assoc, List.cons_append, List.nil_append] at hread
    rw [datum.items, List.map_cons, lines, htext]
    simp only [List.append_assoc, List.cons_append]
    -- past the separator and the indentation to the element, which is read, then the others
    refine (reads_nextElement_open (blank_newline hind) hc hclose).bind ?_
    rw [if_pos rfl]
    exact (Reads.within (hread hfuel)).bind (ih.congr (by simp))

/-- **Lists read back.**  A list whose elements read back reads back as the list of their
data. -/
theorem readsPretty_many {inner : Shape} {vds : List (Value × Datum)}
    (h : ∀ p ∈ vds, ReadsPretty inner p.1 p.2) :
    ReadsPretty (.many inner) (.array (vds.map (·.1))) (.many (vds.map (·.2))) := by
  refine ⟨fun ind => ⟨'[', _, prettyAt_array ind _, by simp [IsSpace], by decide⟩,
    fun ind ws rest fuel hind hws _ hlen => ?_⟩
  have htext := prettyAt_array ind (vds.map (·.1))
  simp only [List.map_map, Function.comp_def, List.map_eq_nil_iff] at htext
  rw [← String.length_toList, htext] at hlen
  simp only [List.length_cons, List.length_append, List.length_nil] at hlen
  obtain ⟨fuel, rfl⟩ : ∃ f, fuel = f + 1 := ⟨fuel - 1, by omega⟩
  have hbody := reads_items (blank_indent hind) (blank_closing ind hind (vds = [])) rest vds 0 []
    fuel h
    (by simp only [decide_true]; omega)
  simp only [decide_true, List.reverse_nil, List.nil_append] at hbody
  rw [datum, htext]
  refine (reads_blanks_before hws rfl (by simp [IsSpace])).bind ?_
  simp only [List.cons_append]
  exact reads_opened hbody (reads_closeList (show Blank [] by simp [Blank]))

/-! ## Price maps -/

theorem isDigit_toNat {c : Char} (h : isDigit c = true) : 48 ≤ c.toNat ∧ c.toNat ≤ 57 := by
  simp only [isDigit, Bool.and_eq_true, decide_eq_true_eq] at h
  have hlo : '0'.toNat ≤ c.toNat := h.1
  have hhi : c.toNat ≤ '9'.toNat := h.2
  exact ⟨hlo, hhi⟩

theorem escapeChar_of_isDigit {c : Char} (h : isDigit c = true) : escapeChar c = [c] := by
  have hc := isDigit_toNat h
  unfold escapeChar
  split_ifs with h₁ h₂ h₃ h₄ h₅ h₆ h₇ h₈
  · subst h₁; simp at hc
  · subst h₂; simp at hc
  · subst h₃; simp at hc
  · subst h₄; simp at hc
  · subst h₅; simp at hc
  · omega
  · omega
  · omega
  · rfl

theorem flatMap_escapeChar_of_digits {cs : List Char} (h : ∀ c ∈ cs, isDigit c = true) :
    cs.flatMap escapeChar = cs := by
  induction cs with
  | nil => rfl
  | cons c cs ih =>
    rw [List.flatMap_cons, escapeChar_of_isDigit (h c List.mem_cons_self),
      ih (fun x hx => h x (List.mem_cons_of_mem _ hx))]
    rfl

/-- A price key is written as its decimal digits in quotes: no digit needs an escape. -/
theorem quote_wordText (k : UInt64) :
    (quote (toString k.toNat)).toList = '"' :: ((toString k.toNat).toList ++ ['"']) := by
  have hdig : ∀ c ∈ (toString k.toNat).toList, isDigit c = true := by
    rw [Nat.toString_eq_repr, Nat.repr_eq_ofList_toDigits, String.toList_ofList]
    exact (toDigits_facts k.toNat).1
  rw [quote_toList, flatMap_escapeChar_of_digits hdig]

theorem reads_priceKey (k : UInt64) (rest : List Char) :
    Reads priceKey ((quote (toString k.toNat)).toList ++ rest) rest k := by
  obtain ⟨c, cs, htext, hdigit⟩ := wordText_cons k
  have hminus : c ≠ '-' := by
    rintro rfl
    revert hdigit
    decide
  have hword := reads_word (show EndsNumber ('"' :: rest) by simp [EndsNumber]; decide) k
  rw [htext] at hword
  rw [quote_wordText, priceKey, htext]
  refine (reads_advance _ _).bind ?_
  simp only [List.append_eq, List.cons_append, List.append_assoc]
  refine (reads_peek _).bind ?_
  simp only [List.head?_cons]
  rw [if_pos (Or.inl hdigit)]
  refine (reads_peekOrNull _).bind ?_
  simp only [List.head?_cons, Option.getD_some]
  refine (Reads.pure _ _).bind (hword.bind ?_)
  simp only [wordOf]
  refine (Reads.pure _ _).bind ((reads_peek _).bind ?_)
  exact (reads_advance _ _).bind (Reads.pure _ _)

theorem insertEntry_of_lt {k : UInt64} {d : Datum} :
    ∀ {acc : List (UInt64 × Datum)}, (∀ e ∈ acc, e.1 < k) →
      insertEntry k d acc = acc ++ [(k, d)]
  | [], _ => rfl
  | (k', d') :: acc, h => by
    have hlt : k'.toNat < k.toNat := UInt64.lt_iff_toNat_lt.1 (h (k', d') List.mem_cons_self)
    rw [insertEntry, if_neg (fun hk => by rw [UInt64.lt_iff_toNat_lt] at hk; omega),
      if_neg (fun hk => by rw [hk] at hlt; omega),
      insertEntry_of_lt (fun e he => h e (List.mem_cons_of_mem _ he))]
    rfl

/-- The entries of a pretty price map are read one by one up to the closing brace; their keys
ascend, so each is put after the ones read before. -/
theorem reads_entries {inner : Shape} {ind : String} (hind : Blank ind.toList)
    {tail : List Char} (htail : Blank tail) (rest : List Char) :
    ∀ (es : List (UInt64 × Value × Datum)) (first : Bool) (acc : List (UInt64 × Datum))
      (fuel : Nat),
      (∀ e ∈ es, ReadsPretty inner e.2.1 e.2.2) → (es.map (·.1)).Pairwise (· < ·) →
      (∀ a ∈ acc, ∀ e ∈ es, a.1 < e.1) →
      (lines ind.toList first (es.map fun e => memberText ind (toString e.1.toNat, e.2.1))).length <
        fuel →
      Reads (datum.entries fuel inner first acc)
        (lines ind.toList first (es.map fun e => memberText ind (toString e.1.toNat, e.2.1)) ++
          tail ++ '\x7d' :: rest)
        ('\x7d' :: rest) (acc ++ es.map fun e => (e.1, e.2.2))
  | [], first, acc, fuel + 1, _, _, _, _ => by
    rw [datum.entries]
    refine (reads_nextMember_close htail).bind ?_
    simpa using Reads.pure acc ('\x7d' :: rest)
  | (p, v, d) :: es, first, acc, fuel + 1, h, hkeys, hacc, hlen => by
    have hend : EndsNumber (lines ind.toList false
        (es.map fun e => memberText ind (toString e.1.toNat, e.2.1)) ++ tail ++ '\x7d' :: rest) :=
      endsNumber_lines htail (by simp [EndsNumber]; decide) _
    have hread := (h (p, v, d) List.mem_cons_self).reads ind [' '] _ fuel hind
      (by simp [Blank, IsSpace]) hend
    simp only [List.map_cons, length_lines_cons, length_memberText] at hlen
    have hfuel : (v.prettyAt ind).length < fuel := by rw [← String.length_toList]; omega
    rw [List.map_cons, List.pairwise_cons] at hkeys
    have hlt : ∀ a ∈ acc, a.1 < p := fun a ha => hacc a ha (p, v, d) List.mem_cons_self
    have ih := reads_entries hind htail rest es false (acc ++ [(p, d)]) fuel
      (fun e he => h e (List.mem_cons_of_mem _ he)) hkeys.2
      (by
        intro a ha e he
        rcases List.mem_append.1 ha with ha | ha
        · exact hacc a ha e (List.mem_cons_of_mem _ he)
        · rw [List.mem_singleton.1 ha]
          exact hkeys.1 e.1 (List.mem_map_of_mem he))
      (by omega)
    obtain ⟨q, hq⟩ : ∃ q, (quote (toString p.toNat)).toList = '"' :: q :=
      ⟨_, quote_toList _⟩
    have hkey := reads_priceKey p (':' :: ' ' :: ((v.prettyAt ind).toList ++
      (lines ind.toList false (es.map fun e => memberText ind (toString e.1.toNat, e.2.1)) ++
        (tail ++ '\x7d' :: rest))))
    rw [hq] at hkey
    simp only [List.append_assoc, List.cons_append] at hread ih
    rw [datum.entries, List.map_cons, lines, memberText, hq]
    simp only [List.append_assoc, List.cons_append]
    -- past the separator to the key, the key, the colon, the value, then the other entries
    refine (reads_nextMember_open (blank_newline hind)).bind ?_
    rw [if_pos rfl]
    refine hkey.bind ((reads_colon (show Blank [] by simp [Blank])).bind ?_)
    refine (Reads.within (hread hfuel)).bind ?_
    rw [insertEntry_of_lt hlt]
    exact ih.congr (by simp)

/-- **Price maps read back.**  A map whose keys ascend and whose values read back reads back
as the map of the keys to their data. -/
theorem readsPretty_byPrice {inner : Shape} {es : List (UInt64 × Value × Datum)}
    (h : ∀ e ∈ es, ReadsPretty inner e.2.1 e.2.2) (hkeys : (es.map (·.1)).Pairwise (· < ·)) :
    ReadsPretty (.byPrice inner) (.object (es.map fun e => (toString e.1.toNat, e.2.1)))
      (.byPrice (es.map fun e => (e.1, e.2.2))) := by
  refine ⟨fun ind => ⟨'\x7b', _, prettyAt_object ind _, by simp [IsSpace], by decide⟩,
    fun ind ws rest fuel hind hws _ hlen => ?_⟩
  have htext := prettyAt_object ind (es.map fun e => (toString e.1.toNat, e.2.1))
  simp only [List.map_map, Function.comp_def, List.map_eq_nil_iff] at htext
  rw [← String.length_toList, htext] at hlen
  simp only [List.length_cons, List.length_append, List.length_nil] at hlen
  obtain ⟨fuel, rfl⟩ : ∃ f, fuel = f + 1 := ⟨fuel - 1, by omega⟩
  have hbody := reads_entries (blank_indent hind) (blank_closing ind hind (es = [])) rest es true []
    fuel h hkeys (by simp) (by omega)
  simp only [List.nil_append] at hbody
  rw [datum, htext]
  refine (reads_blanks_before hws rfl (by simp [IsSpace])).bind ?_
  simp only [List.cons_append]
  exact reads_opened hbody (reads_closeObject (show Blank [] by simp [Blank]))

/-! ## Records -/

theorem indexOf_append_cons {pre post : List String} {n : String} (h : n ∉ pre) :
    indexOf (pre ++ n :: post) n = some pre.length := by
  induction pre with
  | nil => simp [indexOf, List.findIdx?_cons]
  | cons m pre ih =>
    have hm : m ≠ n := fun e => h (e ▸ List.mem_cons_self)
    have ih' := ih (fun hn => h (List.mem_cons_of_mem _ hn))
    simp only [indexOf] at ih' ⊢
    rw [List.cons_append, List.findIdx?_cons, ih']
    simp [hm]

/-- The fields of a record written as an object in declaration order are read one by one into
their slots up to the closing brace: the loop keeps the fields read filled and the others
empty. -/
theorem reads_named {fs : List (String × Shape × Value × Datum)} (hnames : (fs.map (·.1)).Nodup)
    (h : ∀ f ∈ fs, ReadsPretty f.2.1 f.2.2.1 f.2.2.2) {ind : String} (hind : Blank ind.toList)
    {tail : List Char} (htail : Blank tail) (rest : List Char) :
    ∀ (post pre : List (String × Shape × Value × Datum)) (first : Bool) (fuel : Nat),
      fs = pre ++ post →
      (lines ind.toList first (post.map fun f => memberText ind (f.1, f.2.2.1))).length < fuel →
      Reads (datum.named fuel (fs.map fun f => (f.1, f.2.1)) first
          (pre.map (fun f => some f.2.2.2) ++ post.map fun _ => none))
        (lines ind.toList first (post.map fun f => memberText ind (f.1, f.2.2.1)) ++ tail ++
          '\x7d' :: rest)
        ('\x7d' :: rest) (fs.map fun f => some f.2.2.2)
  | [], pre, first, fuel + 1, hfs, _ => by
    subst hfs
    rw [datum.named]
    refine (reads_nextMember_close htail).bind ?_
    simpa using Reads.pure (pre.map fun f => some f.2.2.2) ('\x7d' :: rest)
  | (key, s, v, d) :: post, pre, first, fuel + 1, hfs, hlen => by
    have hf : (key, s, v, d) ∈ fs := hfs ▸ List.mem_append_right _ List.mem_cons_self
    -- the field's name comes after the names of the fields before it, and only there
    have hindex : indexOf ((fs.map fun f => (f.1, f.2.1)).map (·.1)) key = some pre.length := by
      have hdis : key ∉ pre.map (·.1) := by
        intro hk
        rw [hfs, List.map_append, List.map_cons] at hnames
        exact (List.nodup_append.1 hnames).2.2 key hk key List.mem_cons_self rfl
      simp only [List.map_map, Function.comp_def, hfs, List.map_append, List.map_cons]
      simpa using indexOf_append_cons hdis
    have hslot : ((pre.map (fun f => some f.2.2.2) ++
        none :: post.map fun _ => none)[pre.length]?.join).isSome = false := by
      simp
    have hfield : (fs.map fun f => (f.1, f.2.1))[pre.length]? = some (key, s) := by
      rw [hfs]
      simp
    have hset : (pre.map (fun f : String × Shape × Value × Datum => some f.2.2.2) ++
        none :: post.map fun _ => none).set pre.length (some d) =
        (pre ++ [(key, s, v, d)]).map (fun f : String × Shape × Value × Datum => some f.2.2.2) ++
          post.map fun _ => none := by
      simp [List.set_append_right]
    simp only [List.map_cons, length_lines_cons, length_memberText] at hlen
    have hfuel : (v.prettyAt ind).length < fuel := by rw [← String.length_toList]; omega
    have hend : EndsNumber (lines ind.toList false
        (post.map fun f => memberText ind (f.1, f.2.2.1)) ++ tail ++ '\x7d' :: rest) :=
      endsNumber_lines htail (by simp [EndsNumber]; decide) _
    have hread := (h (key, s, v, d) hf).reads ind [' '] _ fuel hind (by simp [Blank, IsSpace]) hend
    have ih := reads_named hnames h hind htail rest post (pre ++ [(key, s, v, d)]) false fuel
      (by rw [hfs]; simp) (by omega)
    simp only [List.append_assoc, List.cons_append] at hread ih
    rw [datum.named]
    simp only [List.map_cons, lines, List.append_assoc, List.cons_append]
    rw [memberText, quote_toList]
    simp only [List.append_assoc, List.cons_append]
    -- past the separator to the name, the name, the colon, the value, then the other fields
    refine (reads_nextMember_open (blank_newline hind)).bind ?_
    rw [if_pos rfl]
    refine (reads_advance _ _).bind ((reads_string key _).bind ?_)
    simp only [hindex, hslot, Bool.false_eq_true, if_false]
    refine (reads_colon (show Blank [] by simp [Blank])).bind ?_
    simp only [hfield]
    refine (Reads.within (hread hfuel)).bind ?_
    rw [hset]
    exact ih

theorem reads_complete (i : List Char) :
    ∀ (fields : List (String × Shape)) (ds : List Datum), fields.length = ds.length →
      Reads (datum.complete fields (ds.map some)) i i ds
  | [], [], _ => by
    rw [datum.complete]
    exact Reads.pure _ _
  | (n, s) :: fields, d :: ds, h => by
    rw [List.map_cons, datum.complete]
    exact (Reads.pure _ _).bind
      ((reads_complete i fields ds (by simpa using h)).bind (Reads.pure _ _))

/-- **Records read back.**  A record written as an object whose members are its fields in
order, with distinct names and values that read back, reads back as the record of their
data. -/
theorem readsPretty_record {name : String} {fs : List (String × Shape × Value × Datum)}
    (hnames : (fs.map (·.1)).Nodup) (h : ∀ f ∈ fs, ReadsPretty f.2.1 f.2.2.1 f.2.2.2) :
    ReadsPretty (.record name (fs.map fun f => (f.1, f.2.1)))
      (.object (fs.map fun f => (f.1, f.2.2.1))) (.record (fs.map (·.2.2.2))) := by
  refine ⟨fun ind => ⟨'\x7b', _, prettyAt_object ind _, by simp [IsSpace], by decide⟩,
    fun ind ws rest fuel hind hws _ hlen => ?_⟩
  have htext := prettyAt_object ind (fs.map fun f => (f.1, f.2.2.1))
  simp only [List.map_map, Function.comp_def, List.map_eq_nil_iff] at htext
  rw [← String.length_toList, htext] at hlen
  simp only [List.length_cons, List.length_append, List.length_nil] at hlen
  obtain ⟨fuel, rfl⟩ : ∃ f, fuel = f + 1 := ⟨fuel - 1, by omega⟩
  have hbody := reads_named hnames h (blank_indent hind) (blank_closing ind hind (fs = [])) rest fs
    [] true fuel (by simp) (by omega)
  have hcomplete := reads_complete ('\x7d' :: rest) (fs.map fun f => (f.1, f.2.1))
    (fs.map (·.2.2.2)) (by simp)
  simp only [List.map_nil, List.nil_append] at hbody
  simp only [List.map_map, Function.comp_def] at hcomplete
  rw [datum, htext]
  refine (reads_blanks_before hws rfl (by simp [IsSpace])).bind ?_
  simp only [List.cons_append, List.map_map, Function.comp_def]
  exact reads_opened (hbody.bind hcomplete) (reads_closeObject (show Blank [] by simp [Blank]))

/-! ## Whole texts -/

theorem at_start (text : String) : At (Cursor.start .stream text) text.toList :=
  ⟨rfl, String.length_toList.symm, rfl⟩

/-- **Pretty text decodes.**  A value whose pretty text reads back as `d` is decoded from that
text, read as a stream, as `d`. -/
theorem text_pretty {shape : Shape} {v : Value} {d : Datum} (h : ReadsPretty shape v d) :
    text .stream shape v.pretty = .ok d := by
  have hread := h.reads "" [] [] (2 * v.pretty.length + 16) (by simp [Blank]) (by simp [Blank])
    (by simp [EndsNumber]) (by rw [Value.pretty]; omega)
  simp only [List.nil_append, List.append_nil] at hread
  have hall : Reads (do
      let d ← datum (2 * v.pretty.length + 16) shape
      finish
      return d) v.pretty.toList [] d :=
    hread.bind ((reads_finish (show Blank [] by simp [Blank])).bind (Reads.pure d []))
  obtain ⟨c', hrun, -⟩ := hall (Cursor.start .stream v.pretty) (at_start _)
  unfold text
  simp only [hrun]

end Decode

end Bourse
