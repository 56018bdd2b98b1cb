import Mathlib.Data.List.Infix
import Mirror.Js.Json

/-!
String literals as a JSON text writes them: the scan that finds them, what it makes of a text, and
how it goes along with the reader of tokens.
-/
namespace Js

/-- A string literal, by what stands between its quotes, or a code unit outside of them. -/
inductive Lexeme
  | literal (raw : JsString)
  | unit (c : CodeUnit)
  deriving DecidableEq

/-- Where the scan is, with what it has read of a literal in reverse. -/
inductive Scan
  | outside
  | inside (raw : JsString)
  | escaping (raw : JsString)

def Scan.step : Scan → CodeUnit → List Lexeme × Scan
  | .outside, c => if c = 0x22 then ([], .inside []) else ([.unit c], .outside)
  | .inside raw, c =>
    if c = 0x22 then ([.literal raw.reverse], .outside)
    else if c = 0x5C then ([], .escaping (c :: raw))
    else ([], .inside (c :: raw))
  | .escaping raw, c => ([], .inside (c :: raw))

def lexemes : Scan → JsString → List Lexeme
  | _, [] => []
  | sc, c :: rest => (sc.step c).1 ++ lexemes (sc.step c).2 rest

/-! ### What a lexeme is written as -/

def Lexeme.written : Lexeme → JsString
  | .literal raw => [0x22] ++ raw ++ [0x22]
  | .unit c => [c]

/-- What has been read of a literal that is still open. -/
def Scan.pending : Scan → JsString
  | .outside => []
  | .inside raw | .escaping raw => 0x22 :: raw.reverse

theorem step_written (sc : Scan) (c : CodeUnit) :
    sc.pending ++ [c] = (sc.step c).1.flatMap Lexeme.written ++ (sc.step c).2.pending := by
  cases sc with
  | outside =>
    simp only [Scan.step]
    split
    next quote => simp [quote, Scan.pending]
    next => simp [Scan.pending, Lexeme.written]
  | inside raw =>
    simp only [Scan.step]
    split
    next quote => simp [quote, Scan.pending, Lexeme.written]
    next =>
      split <;> simp [Scan.pending]
  | escaping raw => simp [Scan.step, Scan.pending]

/-- The text is its lexemes and what is left open at its end. -/
theorem lexemes_written (sc : Scan) (s : JsString) :
    ∃ rest, sc.pending ++ s = (lexemes sc s).flatMap Lexeme.written ++ rest := by
  induction s generalizing sc with
  | nil => exact ⟨sc.pending, by simp [lexemes]⟩
  | cons c s ih =>
    obtain ⟨rest, written⟩ := ih (sc.step c).2
    refine ⟨rest, ?_⟩
    calc sc.pending ++ c :: s = (sc.pending ++ [c]) ++ s := by simp
      _ = (sc.step c).1.flatMap Lexeme.written ++ ((sc.step c).2.pending ++ s) := by
        rw [step_written, List.append_assoc]
      _ = (lexemes sc (c :: s)).flatMap Lexeme.written ++ rest := by
        rw [written, lexemes, List.flatMap_append, List.append_assoc]

/-- Without quotes and backslashes a literal is written as it reads. -/
def IsVerbatim (s : JsString) : Prop := ∀ c ∈ s, c ≠ 0x22 ∧ c ≠ 0x5C

instance (s : JsString) : Decidable (IsVerbatim s) := List.decidableBAll _ _

theorem lexemes_verbatim {s : JsString} (verbatim : IsVerbatim s) (raw rest : JsString) :
    lexemes (.inside raw) (s ++ 0x22 :: rest) =
      .literal (raw.reverse ++ s) :: lexemes .outside rest := by
  induction s generalizing raw with
  | nil => simp [lexemes, Scan.step]
  | cons c s ih =>
    obtain ⟨quote, backslash⟩ := verbatim c List.mem_cons_self
    have later : IsVerbatim s := fun c member => verbatim c (List.mem_cons_of_mem _ member)
    simp only [List.cons_append, lexemes, Scan.step, if_neg quote, if_neg backslash, ih later]
    simp

/-! ### Along with the tokens -/

/-- The scan is inside a literal where the reader of tokens is. -/
def Follows : Lexing → Scan → Prop
  | .between, .outside | .number _, .outside | .word _, .outside => True
  | .string _, .inside _ | .unicode _ _, .inside _ => True
  | .escape _, .escaping _ => True
  | _, _ => False

theorem follows_start {c : CodeUnit} {ts : List Token} {l : Lexing}
    (h : startToken c = some (ts, l)) : Follows l (Scan.outside.step c).2 := by
  by_cases quote : c = 0x22
  · subst quote
    cases h
    trivial
  · simp only [Scan.step, if_neg quote]
    simp only [startToken, if_neg quote] at h
    split at h
    · cases h
      trivial
    · split at h
      · cases h
        trivial
      · split at h
        · cases h
          trivial
        · simp only [Option.map_eq_some_iff, Prod.mk.injEq] at h
          obtain ⟨_, -, -, rfl⟩ := h
          trivial

section

variable {c : CodeUnit} {ts : List Token} {l' : Lexing} {raw : JsString}

/-- A digit of an escape is neither a quote nor a backslash. -/
theorem ne_of_isDigit (digit : isDigit 16 c = true) : c ≠ 0x22 ∧ c ≠ 0x5C := by
  constructor
  all_goals
    rintro rfl
    exact absurd digit (by decide)

theorem follows_string {read : JsString} (h : (Lexing.string read).step c = some (ts, l')) :
    Follows l' ((Scan.inside raw).step c).2 := by
  simp only [Lexing.step] at h
  simp only [Scan.step]
  split at h
  next quote =>
    cases h
    rw [if_pos quote]
    trivial
  next quote =>
    rw [if_neg quote]
    split at h
    next backslash =>
      cases h
      rw [if_pos backslash]
      trivial
    next backslash =>
      rw [if_neg backslash]
      split at h
      · cases h
      · cases h
        trivial

theorem follows_escape {read : JsString} (h : (Lexing.escape read).step c = some (ts, l')) :
    Follows l' ((Scan.escaping raw).step c).2 := by
  simp only [Lexing.step] at h
  split at h
  · cases h
    trivial
  · simp only [Option.map_eq_some_iff, Prod.mk.injEq] at h
    obtain ⟨_, -, -, rfl⟩ := h
    trivial

theorem follows_unicode {read digits : JsString}
    (h : (Lexing.unicode read digits).step c = some (ts, l')) :
    Follows l' ((Scan.inside raw).step c).2 := by
  simp only [Lexing.step] at h
  split at h
  next digit =>
    obtain ⟨quote, backslash⟩ := ne_of_isDigit digit
    simp only [Scan.step, if_neg quote, if_neg backslash]
    split at h
    · cases h
      trivial
    · cases h
      trivial
  next => cases h

/-- A number or a word goes on, or the next token begins where it ends. -/
theorem follows_atom {l : Lexing} (atom : (∃ read, l = .number read) ∨ ∃ read, l = .word read)
    (h : l.step c = some (ts, l')) : Follows l' (Scan.outside.step c).2 := by
  rcases atom with ⟨read, rfl⟩ | ⟨read, rfl⟩
  all_goals
    simp only [Lexing.step] at h
    split at h
    next part =>
      cases h
      have quote : c ≠ 0x22 := by
        rintro rfl
        exact absurd part (by decide)
      simp only [Scan.step, if_neg quote]
      trivial
    next =>
      simp only [Option.bind_eq_bind, Option.bind_eq_some_iff, Prod.exists, Option.pure_def,
        Option.some.injEq, Prod.mk.injEq] at h
      obtain ⟨_, -, _, _, begun, -, rfl⟩ := h
      exact follows_start begun

end

theorem Follows.step {l l' : Lexing} {sc : Scan} (follows : Follows l sc) {c : CodeUnit}
    {ts : List Token} (h : l.step c = some (ts, l')) : Follows l' (sc.step c).2 := by
  match l, sc, follows with
  | .between, .outside, _ => exact follows_start h
  | .string _, .inside _, _ => exact follows_string h
  | .unicode _ _, .inside _, _ => exact follows_unicode h
  | .escape _, .escaping _, _ => exact follows_escape h
  | .number read, .outside, _ => exact follows_atom (.inl ⟨read, rfl⟩) h
  | .word read, .outside, _ => exact follows_atom (.inr ⟨read, rfl⟩) h

/-- Where the reader of tokens is after a text that it gets through. -/
def Lexing.after (l : Lexing) (s : JsString) : Option Lexing :=
  s.foldlM (fun l c => (l.step c).map Prod.snd) l

theorem tokens_cons {l : Lexing} {c : CodeUnit} {s : JsString}
    (reads : (tokens l (c :: s)).isSome = true) :
    ∃ ts l', l.step c = some (ts, l') ∧ (tokens l' s).isSome = true := by
  obtain ⟨ts, read⟩ := Option.isSome_iff_exists.mp reads
  simp only [tokens, Option.bind_eq_bind, Option.bind_eq_some_iff, Prod.exists] at read
  obtain ⟨done, l', stepped, later, read, -⟩ := read
  exact ⟨done, l', stepped, by rw [read]; rfl⟩

/-- What is read is read up to any place in it. -/
theorem after_of_tokens {l : Lexing} {s rest : JsString}
    (reads : (tokens l (s ++ rest)).isSome = true) : l.after s ≠ none := by
  induction s generalizing l with
  | nil => simp [Lexing.after]
  | cons c s ih =>
    obtain ⟨ts, l', stepped, reads⟩ := tokens_cons reads
    have later := ih reads
    simp only [Lexing.after, List.foldlM_cons, stepped, Option.map_some] at later ⊢
    exact later

/-! ### Fields -/

/-- A name that is written as it reads and does not begin a word. -/
structure IsFieldName (name : JsString) : Prop where
  verbatim : IsVerbatim name
  noWord : Lexing.after .between (name ++ [0x22]) = none

instance (name : JsString) : Decidable (IsFieldName name) :=
  decidable_of_iff (IsVerbatim name ∧ Lexing.after .between (name ++ [0x22]) = none)
    ⟨fun h => ⟨h.1, h.2⟩, fun h => ⟨h.verbatim, h.noWord⟩⟩

/-- The name in quotes. -/
def inQuotes (name : JsString) : JsString := 0x22 :: (name ++ [0x22])

/-- In a text that is read, a name in quotes before a colon is the end of a literal that a colon
follows. -/
theorem lexemes_field {name : JsString} (field : IsFieldName name) {pre more : JsString}
    {l : Lexing} {sc : Scan} (follows : Follows l sc)
    (reads : (tokens l (pre ++ (inQuotes name ++ 0x3A :: more))).isSome = true) :
    ∃ before raw, lexemes sc (pre ++ (inQuotes name ++ 0x3A :: more)) =
        before ++ .literal raw :: .unit 0x3A :: lexemes .outside more ∧
      0x22 :: name <:+ 0x22 :: raw := by
  induction pre generalizing l sc with
  | nil =>
    have closed (raw : JsString) : lexemes (.inside raw) (name ++ [0x22] ++ 0x3A :: more) =
        .literal (raw.reverse ++ name) :: .unit 0x3A :: lexemes .outside more := by
      rw [List.append_assoc, List.singleton_append, lexemes_verbatim field.verbatim]
      rfl
    simp only [List.nil_append, inQuotes, List.cons_append] at reads ⊢
    cases sc with
    | outside =>
      refine ⟨[], name, ?_, List.suffix_refl _⟩
      exact closed []
    | escaping raw =>
      refine ⟨[], raw.reverse ++ 0x22 :: name, ?_, ?_⟩
      · have ended := closed (0x22 :: raw)
        have joined : (0x22 :: raw).reverse ++ name = raw.reverse ++ 0x22 :: name := by simp
        rw [joined] at ended
        exact ended
      · exact (List.suffix_append raw.reverse (0x22 :: name)).trans (List.suffix_cons _ _)
    | inside raw =>
      -- the quote closes the literal, or no digit stands where one has to
      obtain ⟨ts, l', stepped, reads⟩ := tokens_cons reads
      cases l with
      | string read =>
        cases stepped
        exact absurd field.noWord (after_of_tokens reads)
      | unicode read digits =>
        cases stepped
      | between | number | word | escape => exact follows.elim
  | cons c pre ih =>
    obtain ⟨ts, l', stepped, reads⟩ := tokens_cons reads
    obtain ⟨before, raw, found, ends⟩ := ih (follows.step stepped) reads
    refine ⟨(sc.step c).1 ++ before, raw, ?_, ends⟩
    rw [List.cons_append, lexemes, found, List.append_assoc]

/-- Somewhere a literal ends, as written, in this name, and a colon and these lexemes follow. -/
def Spells (name : JsString) (value : List Lexeme) (s : JsString) : Prop :=
  ∃ before raw after,
    lexemes .outside s = before ++ .literal raw :: .unit 0x3A :: (value ++ after) ∧
      0x22 :: name <:+ 0x22 :: raw

/-- The lexemes that a field is spelled with are found wherever its text is. -/
theorem spells_iff_occurs {name : JsString} (field : IsFieldName name) {value : List Lexeme}
    (whole : ∀ more, lexemes .outside (value.flatMap Lexeme.written ++ more) =
      value ++ lexemes .outside more) {s : JsString} (reads : (tokens .between s).isSome = true) :
    Spells name value s ↔ inQuotes name ++ 0x3A :: value.flatMap Lexeme.written <:+: s := by
  constructor
  · rintro ⟨before, raw, after, found, start, ends⟩
    obtain ⟨rest, written⟩ := lexemes_written .outside s
    refine ⟨before.flatMap Lexeme.written ++ start, after.flatMap Lexeme.written ++ rest, ?_⟩
    have literal : Lexeme.written (.literal raw) = start ++ inQuotes name :=
      calc Lexeme.written (.literal raw) = (0x22 :: raw) ++ [0x22] := rfl
        _ = (start ++ 0x22 :: name) ++ [0x22] := by rw [ends]
        _ = start ++ inQuotes name := List.append_assoc _ _ _
    rw [found] at written
    simp only [Scan.pending, List.nil_append, List.flatMap_append, List.flatMap_cons,
      literal] at written
    rw [written]
    simp [Lexeme.written, List.append_assoc]
  · rintro ⟨pre, post, rfl⟩
    have placed : pre ++ (inQuotes name ++ 0x3A :: value.flatMap Lexeme.written) ++ post =
        pre ++ (inQuotes name ++ 0x3A :: (value.flatMap Lexeme.written ++ post)) := by simp
    rw [placed] at reads ⊢
    have outside : Follows .between .outside := trivial
    obtain ⟨before, raw, found, ends⟩ := lexemes_field field outside reads
    exact ⟨before, raw, lexemes .outside post, by rw [found, whole], ends⟩

/-- A literal that is written as it reads is found as such. -/
theorem lexemes_literal {v : JsString} (verbatim : IsVerbatim v) (more : JsString) :
    lexemes .outside ([Lexeme.literal v].flatMap Lexeme.written ++ more) =
      [.literal v] ++ lexemes .outside more := by
  have found := lexemes_verbatim verbatim [] more
  simp only [List.flatMap_singleton, Lexeme.written, List.append_assoc, List.cons_append, lexemes,
    Scan.step, if_pos]
  exact found

/-- `s.includes(search)`. -/
theorem includes_iff_occurs (s search : JsString) : includes s search = true ↔ search <:+: s := by
  simp only [includes, List.any_eq_true, List.mem_tails, startsWith, List.isPrefixOf_iff_prefix,
    List.infix_iff_prefix_suffix]
  constructor
  · rintro ⟨rest, ends, begins⟩
    exact ⟨rest, begins, ends⟩
  · rintro ⟨rest, begins, ends⟩
    exact ⟨rest, ends, begins⟩

end Js
