import Mirror.Js.Hex
import Mirror.Js.Plain
import Mirror.Js.Shortest
import Mirror.Js.Utf8

/-! `JSON.parse` reads what `JSON.stringify` writes: the text's tokens, and the value from them. -/
namespace Js

namespace Json

/-- A value whose numbers are finite. Others are written as `null`. -/
inductive IsFinite : Json → Prop
  | null : IsFinite .null
  | bool (b : Bool) : IsFinite (.bool b)
  | num (x : Double) : IsFinite (.num (.finite x))
  | str (s : JsString) : IsFinite (.str s)
  | arr {vs : List Json} (each : ∀ v ∈ vs, IsFinite v) : IsFinite (.arr vs)
  | obj {ms : List (JsString × Json)} (each : ∀ m ∈ ms, IsFinite m.2) : IsFinite (.obj ms)

end Json

/-! ### Steps of the reader -/

theorem tokens_go {l l' : Lexing} {c : CodeUnit} (h : l.step c = some ([], l')) (rest : JsString) :
    tokens l (c :: rest) = tokens l' rest := by
  simp only [tokens, h, Option.bind_eq_bind, Option.bind_some]
  cases tokens l' rest <;> rfl

theorem tokens_emit {l l' : Lexing} {c : CodeUnit} {t : Token} (h : l.step c = some ([t], l'))
    (rest : JsString) : tokens l (c :: rest) = (tokens l' rest).map (t :: ·) := by
  simp only [tokens, h, Option.bind_eq_bind, Option.bind_some]
  cases tokens l' rest <;> rfl

/-- What may follow a value: nothing, or the token that goes on with the value around it. -/
def Delimited (rest : JsString) : Prop :=
  ∀ c t, rest = c :: t → c = 0x2C ∨ c = 0x5D ∨ c = 0x7D

theorem delimited_cons {c : CodeUnit} (h : c = 0x2C ∨ c = 0x5D ∨ c = 0x7D) (t : JsString) :
    Delimited (c :: t) := by
  intro d u same
  rw [← (List.cons.inj same).1]
  exact h

theorem delimited_nil : Delimited [] := fun _ _ same => absurd same (List.cons_ne_nil _ _).symm

/-- The text is read as these tokens. -/
def Lexes (s : JsString) (ts : List Token) : Prop :=
  ∀ rest, Delimited rest → tokens .between (s ++ rest) = (tokens .between rest).map (ts ++ ·)

/-- A delimiter ends a number or a word and is a token itself. -/
theorem tokens_delimited {l : Lexing} {ts : List Token} (done : l.finish = some ts)
    (passes : ∀ c t, c = 0x2C ∨ c = 0x5D ∨ c = 0x7D → startToken c = some ([t], .between) →
      l.step c = some (ts ++ [t], .between)) {rest : JsString} (delimited : Delimited rest) :
    tokens l rest = (tokens .between rest).map (ts ++ ·) := by
  cases rest with
  | nil => rw [tokens, tokens, done, Lexing.finish, Option.map_some, List.append_nil]
  | cons c t =>
    obtain ⟨token, starts⟩ : ∃ token, startToken c = some ([token], .between) := by
      rcases delimited c t rfl with rfl | rfl | rfl <;> exact ⟨_, rfl⟩
    rw [tokens_emit (l := .between) starts]
    simp only [tokens, passes c token (delimited c t rfl) starts, Option.bind_eq_bind,
      Option.bind_some]
    cases tokens .between t <;> simp

/-! ### Strings -/

/-- How a unit is written: an escape of one letter, four digits, or the unit itself. -/
inductive Quoted (c : CodeUnit) : JsString → Prop
  | letter {e : CodeUnit} (other : e ≠ 0x75) (value : escaped e = some c) : Quoted c [0x5C, e]
  | digits : Quoted c (0x5C :: 0x75 :: spell [c.val / 0x1000, c.val / 0x100 % 0x10,
      c.val / 0x10 % 0x10, c.val % 0x10])
  | plain (noQuote : c ≠ 0x22) (noBackslash : c ≠ 0x5C) (visible : 0x20 ≤ c.val)
    (single : ¬IsSurrogate c) : Quoted c [c]

theorem quoted_quoteUnit (c : CodeUnit) : Quoted c (Json.quoteUnit c) := by
  unfold Json.quoteUnit
  split_ifs with quote backslash b f n r t control
  · exact .letter (e := 0x22) (by decide) (by rw [quote]; rfl)
  · exact .letter (e := 0x5C) (by decide) (by rw [backslash]; rfl)
  · exact .letter (e := 0x62) (by decide) (by rw [b]; rfl)
  · exact .letter (e := 0x66) (by decide) (by rw [f]; rfl)
  · exact .letter (e := 0x6E) (by decide) (by rw [n]; rfl)
  · exact .letter (e := 0x72) (by decide) (by rw [r]; rfl)
  · exact .letter (e := 0x74) (by decide) (by rw [t]; rfl)
  · exact .digits
  · exact .plain quote backslash (not_lt.mp fun small => control (.inl small))
      fun surrogate => control (.inr surrogate)

theorem tokens_digits {ds : List ℕ} (small : ∀ d ∈ ds, d < 16) (length : ds.length = 4)
    (read rest : JsString) :
    tokens (.unicode read []) (spell ds ++ rest) =
      tokens (.string (Fin.ofNat _ (valueOf ds) :: read)) rest := by
  obtain ⟨d₁, ds, rfl⟩ := List.exists_cons_of_length_eq_add_one length
  obtain ⟨d₂, ds, rfl⟩ := List.exists_cons_of_length_eq_add_one (Nat.succ.inj length)
  obtain ⟨d₃, ds, rfl⟩ := List.exists_cons_of_length_eq_add_one (Nat.succ.inj (Nat.succ.inj length))
  obtain ⟨d₄, rfl⟩ := List.length_eq_one_iff.mp
    (Nat.succ.inj (Nat.succ.inj (Nat.succ.inj length)))
  have digit : ∀ d < 16, isDigit 16 (digitUnit d) = true := by decide
  have value := digitsValue_spell small
  simp only [List.forall_mem_cons] at small
  obtain ⟨h₁, h₂, h₃, h₄, -⟩ := small
  have more : ∀ {d : ℕ} (digits : JsString), d < 16 → digits.length < 3 →
      (Lexing.unicode read digits).step (digitUnit d) =
        some ([], .unicode read (digits ++ [digitUnit d])) := by
    intro d digits small short
    have notYet : (digits ++ [digitUnit d]).length ≠ 4 := by
      rw [List.length_append, List.length_singleton]
      omega
    simp only [Lexing.step, digit d small, if_true, if_neg notYet]
  have last : ∀ {d : ℕ} (digits : JsString), d < 16 → digits.length = 3 →
      (Lexing.unicode read digits).step (digitUnit d) = some ([],
        .string (Fin.ofNat _ (digitsValue 16 (digits ++ [digitUnit d])) :: read)) := by
    intro d digits small three
    have now : (digits ++ [digitUnit d]).length = 4 := by
      rw [List.length_append, List.length_singleton, three]
    simp only [Lexing.step, digit d small, if_true, if_pos now]
  rw [← value]
  exact (tokens_go (more [] h₁ (by decide)) _).trans ((tokens_go (more _ h₂ (by simp)) _).trans
    ((tokens_go (more _ h₃ (by simp)) _).trans (tokens_go (last _ h₄ (by rfl)) _)))

theorem tokens_quoted {c : CodeUnit} {s : JsString} (quoted : Quoted c s) (read rest : JsString) :
    tokens (.string read) (s ++ rest) = tokens (.string (c :: read)) rest := by
  have backslash : (Lexing.string read).step 0x5C = some ([], .escape read) := rfl
  cases quoted with
  | @letter e other value =>
    have ends : (Lexing.escape read).step e = some ([], .string (c :: read)) := by
      rw [Lexing.step, if_neg other, value, Option.map_some]
    rw [List.cons_append, List.cons_append, List.nil_append, tokens_go backslash, tokens_go ends]
  | digits =>
    have letter : (Lexing.escape read).step 0x75 = some ([], .unicode read []) := rfl
    have small : ∀ d ∈ [c.val / 0x1000, c.val / 0x100 % 0x10, c.val / 0x10 % 0x10, c.val % 0x10],
        d < 16 := by
      have := c.isLt
      simp only [List.forall_mem_cons, List.not_mem_nil, false_imp_iff, implies_true, and_true]
      omega
    have value : Fin.ofNat 65536 (valueOf [c.val / 0x1000, c.val / 0x100 % 0x10,
        c.val / 0x10 % 0x10, c.val % 0x10]) = c := by
      have := c.isLt
      apply Fin.ext
      simp only [valueOf, List.reverse_cons, List.reverse_nil, List.nil_append, List.cons_append,
        Nat.ofDigits_cons, Nat.ofDigits_nil, Fin.val_ofNat]
      omega
    rw [List.cons_append, List.cons_append, tokens_go backslash, tokens_go letter,
      tokens_digits small rfl, value]
  | plain noQuote noBackslash visible =>
    have stays : (Lexing.string read).step c = some ([], .string (c :: read)) := by
      rw [Lexing.step, if_neg noQuote, if_neg noBackslash, if_neg visible.not_gt]
    exact tokens_go stays rest

/-- The second unit of a pair needs no escape. -/
theorem tokens_pair {c d : CodeUnit} (lead : IsLeadSurrogate c) (trail : IsTrailSurrogate d)
    (read rest : JsString) :
    tokens (.string read) (c :: d :: rest) = tokens (.string (d :: c :: read)) rest := by
  have plain : ∀ {u : CodeUnit}, 0xD800 ≤ u.val → ∀ read : JsString,
      (Lexing.string read).step u = some ([], .string (u :: read)) := by
    intro u large read
    have other : ∀ w : CodeUnit, w.val < 0xD800 → u ≠ w := by
      rintro w small rfl
      omega
    rw [Lexing.step, if_neg (other _ (by decide)), if_neg (other _ (by decide)),
      if_neg (by omega)]
  have large : 0xD800 ≤ d.val := (by decide : 0xD800 ≤ 0xDC00).trans trail.1
  rw [tokens_go (plain lead.1 read), tokens_go (plain large (c :: read))]

theorem tokens_quoteUnits (s read rest : JsString) :
    tokens (.string read) (Json.quoteUnits s ++ rest) =
      tokens (.string (s.reverse ++ read)) rest := by
  induction s using Json.quoteUnits.induct generalizing read with
  | case1 => rfl
  | case2 c => exact tokens_quoted (quoted_quoteUnit c) read rest
  | case3 c d more pair ih =>
    rw [Json.quoteUnits, if_pos pair, List.cons_append, List.cons_append,
      tokens_pair ⟨pair.1, pair.2.1⟩ ⟨pair.2.2.1, pair.2.2.2⟩, ih]
    simp only [List.reverse_cons, List.append_assoc, List.cons_append, List.nil_append]
  | case4 c d more noPair ih =>
    rw [Json.quoteUnits, if_neg noPair, List.append_assoc, tokens_quoted (quoted_quoteUnit c), ih]
    simp only [List.reverse_cons, List.append_assoc, List.cons_append, List.nil_append]

/-- A string literal, whatever follows it. -/
theorem tokens_quote (s rest : JsString) :
    tokens .between (Json.quote s ++ rest) =
      (tokens .between rest).map (.scalar (.str s) :: ·) := by
  have opens : Lexing.between.step 0x22 = some ([], .string []) := rfl
  have closes : (Lexing.string s.reverse).step 0x22 = some ([.scalar (.str s)], .between) := by
    rw [Lexing.step, if_pos rfl, List.reverse_reverse]
  rw [Json.quote, List.append_assoc, List.append_assoc, List.cons_append, List.nil_append,
    tokens_go opens, tokens_quoteUnits, List.append_nil, List.cons_append, List.nil_append,
    tokens_emit closes]

/-! ### Numbers and words -/

/-- A lexeme that goes on while its parts do. -/
theorem tokens_run {lexing : JsString → Lexing} {part : CodeUnit → Bool}
    (goes : ∀ read d, part d = true → (lexing read).step d = some ([], lexing (d :: read)))
    {more : JsString} (parts : ∀ d ∈ more, part d = true) (read rest : JsString) :
    tokens (lexing read) (more ++ rest) = tokens (lexing (more.reverse ++ read)) rest := by
  induction more generalizing read with
  | nil => rfl
  | cons d more ih =>
    rw [List.forall_mem_cons] at parts
    rw [List.cons_append, tokens_go (goes read d parts.1), ih parts.2]
    simp only [List.reverse_cons, List.append_assoc, List.cons_append, List.nil_append]

theorem startToken_digit {c : CodeUnit} (digit : isDigit 10 c = true) :
    startToken c = some ([], .number [c]) := by
  obtain ⟨d, small, rfl⟩ := exists_digitUnit digit
  interval_cases d <;> rfl

theorem lexes_number (x : Double) :
    Lexes (Number.finite x).toText [.scalar (.num (.finite x))] := by
  intro rest delimited
  have value := jsonNumber_toText x
  -- the text, a sign included, is made of parts of numbers and begins a number
  obtain ⟨c, more, starts, begins, parts⟩ : ∃ c more, (Number.finite x).toText = c :: more ∧
      startToken c = some ([], .number [c]) ∧ ∀ d ∈ more, isNumberPart d = true := by
    obtain ⟨s, d, literal, written⟩ := toText_literal x
    have part : ∀ c, IsLiteralUnit c → isNumberPart c = true := by
      rintro c (digit | sign | rfl | rfl)
      · rw [isNumberPart, digit]
        rfl
      · rw [isNumberPart, sign]
        simp
      · decide
      · decide
    obtain ⟨c, more, rfl, digit⟩ := literal.start
    have units := List.forall_mem_cons.mp literal.units
    rcases written with ⟨same, -⟩ | ⟨same, -⟩
    · exact ⟨c, more, same, startToken_digit digit, fun d member => part d (units.2 d member)⟩
    · exact ⟨0x2D, _, same, rfl, fun d member => part d (literal.units d member)⟩
  have goes : ∀ read d, isNumberPart d = true →
      (Lexing.number read).step d = some ([], .number (d :: read)) := by
    intro read d part
    rw [Lexing.step, if_pos part]
  have read : (more.reverse ++ [c]).reverse = (Number.finite x).toText := by
    rw [List.reverse_append, List.reverse_reverse, starts]
    rfl
  have done : (Lexing.number (more.reverse ++ [c])).finish = some [.scalar (.num (.finite x))] := by
    rw [Lexing.finish, read, value, Option.map_some]
  rw [starts, List.cons_append, tokens_go (l := .between) begins, tokens_run goes parts [c]]
  refine tokens_delimited done (fun d t delimiter begun => ?_) delimited
  have other : isNumberPart d = false := by
    rcases delimiter with rfl | rfl | rfl <;> decide
  rw [Lexing.step, other, done]
  simp [begun]

theorem lexes_word {s : JsString} {t : Token} (token : wordToken s = some t) (c : CodeUnit)
    (more : JsString) (starts : s = c :: more) (begins : startToken c = some ([], .word [c]))
    (all : more.all isLetter = true) : Lexes s [t] := by
  intro rest delimited
  have letters : ∀ d ∈ more, isLetter d = true := List.all_eq_true.mp all
  have goes : ∀ read d, isLetter d = true →
      (Lexing.word read).step d = some ([], .word (d :: read)) := by
    intro read d letter
    rw [Lexing.step, if_pos letter]
  have done : (Lexing.word (more.reverse ++ [c])).finish = some [t] := by
    rw [Lexing.finish, List.reverse_append, List.reverse_reverse, List.reverse_singleton,
      List.singleton_append, ← starts, token, Option.map_some]
  rw [starts, List.cons_append, tokens_go (l := .between) begins, tokens_run goes letters [c]]
  refine tokens_delimited done (fun d t' delimiter begun => ?_) delimited
  have other : isLetter d = false := by
    rcases delimiter with rfl | rfl | rfl <;> decide
  rw [Lexing.step, other, done]
  simp [begun]

/-! ### Values as tokens -/

namespace Json

mutual

/-- The tokens of a value's text. -/
def spelled : Json → List Token
  | .null => [.scalar .null]
  | .bool b => [.scalar (.bool b)]
  | .num x => [.scalar (.num x)]
  | .str s => [.scalar (.str s)]
  | .arr elements => .openBracket :: (spelledElements elements ++ [.closeBracket])
  | .obj members => .openBrace :: (spelledMembers members ++ [.closeBrace])

def spelledElements : List Json → List Token
  | [] => []
  | [v] => spelled v
  | v :: w :: rest => spelled v ++ .comma :: spelledElements (w :: rest)

def spelledMembers : List (JsString × Json) → List Token
  | [] => []
  | [(k, v)] => .scalar (.str k) :: .colon :: spelled v
  | (k, v) :: m :: rest =>
    .scalar (.str k) :: .colon :: (spelled v ++ .comma :: spelledMembers (m :: rest))

end

def spelledMember (m : JsString × Json) : List Token := .scalar (.str m.1) :: .colon :: spelled m.2

theorem spelledElements_cons (v : Json) (vs : List Json) :
    spelledElements (v :: vs) = spelled v ++ vs.flatMap fun w => .comma :: spelled w := by
  induction vs generalizing v with
  | nil => rw [spelledElements, List.flatMap_nil, List.append_nil]
  | cons w vs ih => rw [spelledElements, ih, List.flatMap_cons, List.cons_append]

theorem spelledMembers_cons (m : JsString × Json) (ms : List (JsString × Json)) :
    spelledMembers (m :: ms) =
      spelledMember m ++ ms.flatMap fun n => .comma :: spelledMember n := by
  induction ms generalizing m with
  | nil => rw [spelledMembers, List.flatMap_nil, List.append_nil, spelledMember]
  | cons n ms ih =>
    rw [spelledMembers, ih, List.flatMap_cons]
    simp only [spelledMember, List.cons_append]

end Json

section

variable {α : Type} {code : α → JsString} {toks : α → List Token} {as : List α}

theorem delimited_preceded {rest : JsString} (delimited : Delimited rest) :
    Delimited (preceded code 0x2C as ++ rest) := by
  cases as with
  | nil => exact delimited
  | cons a as => exact delimited_cons (.inl rfl) _

theorem lexes_preceded (each : ∀ a ∈ as, Lexes (code a) (toks a)) :
    Lexes (preceded code 0x2C as) (as.flatMap fun a => .comma :: toks a) := by
  intro rest delimited
  induction as with
  | nil => simp [preceded]
  | cons a as ih =>
    rw [List.forall_mem_cons] at each
    have comma : Lexing.between.step 0x2C = some ([.comma], .between) := rfl
    have split : preceded code 0x2C (a :: as) ++ rest =
        0x2C :: (code a ++ (preceded code 0x2C as ++ rest)) := by
      simp [preceded]
    rw [split, tokens_emit comma, each.1 _ (delimited_preceded delimited), ih each.2]
    simp only [Option.map_map, Function.comp_def, List.flatMap_cons, List.cons_append,
      List.append_assoc]

/-- Between brackets: the parts with commas between them. -/
theorem lexes_enclosed {join : List α → JsString} {joinToks : List α → List Token}
    (joinNil : join [] = [] ∧ joinToks [] = [])
    (joinCons : ∀ a as, join (a :: as) = code a ++ preceded code 0x2C as ∧
      joinToks (a :: as) = toks a ++ as.flatMap fun a => .comma :: toks a)
    {opening closing : CodeUnit} {first last : Token}
    (opens : Lexing.between.step opening = some ([first], .between))
    (closes : Lexing.between.step closing = some ([last], .between))
    (ends : closing = 0x2C ∨ closing = 0x5D ∨ closing = 0x7D)
    (each : ∀ a ∈ as, Lexes (code a) (toks a)) :
    Lexes ([opening] ++ join as ++ [closing]) (first :: (joinToks as ++ [last])) := by
  intro rest _
  have inner : tokens .between (join as ++ closing :: rest) =
      (tokens .between (closing :: rest)).map (joinToks as ++ ·) := by
    have delimited := delimited_cons ends rest
    cases as with
    | nil =>
      rw [joinNil.1, joinNil.2]
      simp
    | cons a as =>
      rw [List.forall_mem_cons] at each
      rw [(joinCons a as).1, (joinCons a as).2, List.append_assoc,
        each.1 _ (delimited_preceded delimited), lexes_preceded each.2 _ delimited]
      simp only [Option.map_map, Function.comp_def, List.append_assoc]
  rw [List.append_assoc, List.append_assoc, List.cons_append, List.nil_append, List.cons_append,
    List.nil_append, tokens_emit opens, inner, tokens_emit closes]
  simp only [Option.map_map, Function.comp_def, List.cons_append, List.nil_append,
    List.append_assoc]

end

theorem lexes_memberText {m : JsString × Json} (value : Lexes m.2.stringify m.2.spelled) :
    Lexes (Json.memberText m) (Json.spelledMember m) := by
  intro rest delimited
  have colon : Lexing.between.step 0x3A = some ([.colon], .between) := rfl
  rw [Json.memberText, List.append_assoc, List.append_assoc, tokens_quote, List.cons_append,
    List.nil_append, tokens_emit colon, value rest delimited, Json.spelledMember]
  simp only [Option.map_map, Function.comp_def, List.cons_append]

/-- The text of a value is read as its tokens. -/
theorem lexes_stringify {v : Json} (finite : v.IsFinite) : Lexes v.stringify v.spelled := by
  induction finite with
  | null =>
    rw [Json.stringify, Json.spelled]
    exact lexes_word rfl 0x6E [0x75, 0x6C, 0x6C] (by decide) rfl rfl
  | bool b =>
    rw [Json.stringify, Json.spelled]
    cases b with
    | true =>
      exact lexes_word rfl 0x74 [0x72, 0x75, 0x65] (by decide) rfl rfl
    | false =>
      exact lexes_word rfl 0x66 [0x61, 0x6C, 0x73, 0x65] (by decide) rfl rfl
  | num x =>
    rw [Json.stringify, Json.spelled]
    exact lexes_number x
  | str s =>
    rw [Json.stringify, Json.spelled]
    exact fun rest _ => tokens_quote s rest
  | arr each ih =>
    rw [Json.stringify, Json.spelled]
    exact lexes_enclosed ⟨by rw [Json.stringifyElements], by rw [Json.spelledElements]⟩
      (fun v vs => ⟨Json.stringifyElements_cons v vs, Json.spelledElements_cons v vs⟩) rfl rfl
      (.inr (.inl rfl)) ih
  | obj each ih =>
    rw [Json.stringify, Json.spelled]
    exact lexes_enclosed ⟨by rw [Json.stringifyMembers], by rw [Json.spelledMembers]⟩
      (fun m ms => ⟨Json.stringifyMembers_cons m ms, Json.spelledMembers_cons m ms⟩) rfl rfl
      (.inr (.inr rfl)) fun m member => lexes_memberText (ih m member)

/-! ### Values from tokens -/

theorem parsing_go {p q : Parsing} {t : Token} (h : p.step t = some q) (ts : List Token) :
    (t :: ts).foldlM Parsing.step p = ts.foldlM Parsing.step q := by
  rw [List.foldlM_cons, h]
  rfl

/-- From here on the tokens build the value, in any context that waits for one. -/
def Builds (ts : List Token) (v : Json) : Prop :=
  ∀ stack next more, next = .value ∨ next = .valueOrClose →
    (ts ++ more).foldlM Parsing.step ⟨stack, next⟩ = more.foldlM Parsing.step ⟨stack, .done v⟩

theorem builds_scalar (v : Json) : Builds [.scalar v] v := by
  rintro stack next more (rfl | rfl) <;> exact parsing_go rfl more

theorem builds_elements {vs : List Json} (each : ∀ v ∈ vs, Builds v.spelled v)
    (stack : List Frame) (read : List Json) (v : Json) (more : List Token) :
    ((vs.flatMap fun w => .comma :: w.spelled) ++ .closeBracket :: more).foldlM Parsing.step
        ⟨.array read :: stack, .done v⟩ =
      more.foldlM Parsing.step ⟨stack, .done (.arr ((v :: read).reverse ++ vs))⟩ := by
  induction vs generalizing read v with
  | nil =>
    rw [List.flatMap_nil, List.nil_append, List.append_nil]
    exact parsing_go rfl more
  | cons w vs ih =>
    rw [List.forall_mem_cons] at each
    rw [List.flatMap_cons, List.append_assoc, List.cons_append,
      parsing_go (q := ⟨.array (v :: read) :: stack, .value⟩) rfl, each.1 _ _ _ (.inl rfl),
      ih each.2]
    simp only [List.reverse_cons, List.append_assoc, List.cons_append, List.nil_append]

theorem builds_members {ms : List (JsString × Json)} (each : ∀ m ∈ ms, Builds m.2.spelled m.2)
    (stack : List Frame) (read : List (JsString × Json)) (k : JsString) (v : Json)
    (more : List Token) :
    ((ms.flatMap fun m => .comma :: Json.spelledMember m) ++ .closeBrace :: more).foldlM
        Parsing.step ⟨.object read k :: stack, .done v⟩ =
      more.foldlM Parsing.step ⟨stack, .done (.obj (((k, v) :: read).reverse ++ ms))⟩ := by
  induction ms generalizing read k v with
  | nil =>
    rw [List.flatMap_nil, List.nil_append, List.append_nil]
    exact parsing_go rfl more
  | cons m ms ih =>
    rw [List.forall_mem_cons] at each
    rw [List.flatMap_cons, List.append_assoc, List.cons_append,
      parsing_go (q := ⟨stack, .key ((k, v) :: read)⟩) rfl, Json.spelledMember, List.cons_append,
      List.cons_append, parsing_go (q := ⟨stack, .colon ((k, v) :: read) m.1⟩) rfl,
      parsing_go (q := ⟨.object ((k, v) :: read) m.1 :: stack, .value⟩) rfl,
      each.1 _ _ _ (.inl rfl), ih each.2]
    simp only [List.reverse_cons, List.append_assoc, List.cons_append, List.nil_append]

theorem builds_spelled {v : Json} (finite : v.IsFinite) : Builds v.spelled v := by
  induction finite with
  | null => exact builds_scalar .null
  | bool b => exact builds_scalar (.bool b)
  | num x => exact builds_scalar (.num (.finite x))
  | str s => exact builds_scalar (.str s)
  | @arr vs each ih =>
    intro stack next more start
    have opens : Parsing.step ⟨stack, next⟩ .openBracket =
        some ⟨.array [] :: stack, .valueOrClose⟩ := by
      rcases start with rfl | rfl <;> rfl
    rw [Json.spelled, List.cons_append, List.append_assoc, List.cons_append, List.nil_append,
      parsing_go opens]
    cases vs with
    | nil =>
      rw [Json.spelledElements, List.nil_append]
      exact parsing_go rfl more
    | cons v vs =>
      rw [List.forall_mem_cons] at ih
      rw [Json.spelledElements_cons, List.append_assoc, ih.1 _ _ _ (.inr rfl),
        builds_elements ih.2, List.reverse_singleton, List.singleton_append]
  | @obj ms each ih =>
    intro stack next more start
    have opens : Parsing.step ⟨stack, next⟩ .openBrace = some ⟨stack, .keyOrClose⟩ := by
      rcases start with rfl | rfl <;> rfl
    rw [Json.spelled, List.cons_append, List.append_assoc, List.cons_append, List.nil_append,
      parsing_go opens]
    cases ms with
    | nil =>
      rw [Json.spelledMembers, List.nil_append]
      exact parsing_go rfl more
    | cons m ms =>
      rw [List.forall_mem_cons] at ih
      rw [Json.spelledMembers_cons, Json.spelledMember, List.append_assoc, List.cons_append,
        List.cons_append, parsing_go (q := ⟨stack, .colon [] m.1⟩) rfl,
        parsing_go (q := ⟨.object [] m.1 :: stack, .value⟩) rfl, ih.1 _ _ _ (.inl rfl),
        builds_members ih.2, List.reverse_singleton, List.singleton_append]

namespace Json

/-- What is written as JSON is read back. -/
theorem parse_stringify {v : Json} (finite : v.IsFinite) : parse v.stringify = some v := by
  have lexed := lexes_stringify finite [] delimited_nil
  have ends : tokens .between [] = some [] := rfl
  rw [List.append_nil, ends, Option.map_some, List.append_nil] at lexed
  have built := builds_spelled finite [] .value [] (.inl rfl)
  rw [List.append_nil] at built
  unfold parse
  rw [lexed, Option.bind_eq_bind, Option.bind_some, built]
  rfl

end Json

/-! ### Bytes -/

theorem wellFormed_quoteUnits (s : JsString) : WellFormed (Json.quoteUnits s) := by
  have unit : ∀ c, WellFormed (Json.quoteUnit c) := by
    intro c
    have quoted := quoted_quoteUnit c
    revert quoted
    generalize Json.quoteUnit c = t
    intro quoted
    cases quoted with
    | @letter e other value =>
      refine wellFormed_of_ascii (List.forall_mem_cons.mpr
        ⟨by decide, List.forall_mem_singleton.mpr ?_⟩)
      -- a letter that stands for something is one of eight
      by_contra large
      have none : escaped e = Option.none := by
        have differs : ∀ d : CodeUnit, d.val < 0x80 → e ≠ d := by
          rintro d small rfl
          exact large small
        simp only [escaped, differs 0x22 (by decide), differs 0x5C (by decide),
          differs 0x2F (by decide), differs 0x62 (by decide), differs 0x66 (by decide),
          differs 0x6E (by decide), differs 0x72 (by decide), differs 0x74 (by decide),
          decide_false, Bool.or_self, Bool.false_eq_true, if_false]
      rw [none] at value
      cases value
    | digits =>
      refine wellFormed_of_ascii fun d member => ?_
      rcases List.mem_cons.mp member with rfl | member
      · decide
      rcases List.mem_cons.mp member with rfl | member
      · decide
      obtain ⟨n, among, rfl⟩ := List.mem_map.mp member
      have := c.isLt
      have small : n < 16 := by
        simp only [List.mem_cons, List.not_mem_nil, or_false] at among
        omega
      rw [digitUnit_val small]
      split <;> omega
    | plain _ _ _ single => exact .unit single .nil
  induction s using Json.quoteUnits.induct with
  | case1 => exact .nil
  | case2 c => exact unit c
  | case3 c d more pair ih =>
    rw [Json.quoteUnits, if_pos pair]
    exact .pair ⟨pair.1, pair.2.1⟩ ⟨pair.2.2.1, pair.2.2.2⟩ ih
  | case4 c d more noPair ih =>
    rw [Json.quoteUnits, if_neg noPair]
    exact (unit c).append ih

theorem WellFormed.cons_ascii {c : CodeUnit} {s : JsString} (small : c.val < 0x80)
    (h : WellFormed s) : WellFormed (c :: s) :=
  .unit (fun surrogate => by have := surrogate.1; omega) h

theorem wellFormed_quote (s : JsString) : WellFormed (Json.quote s) := by
  rw [Json.quote, List.append_assoc, List.singleton_append]
  exact .cons_ascii (by decide) ((wellFormed_quoteUnits s).append (.cons_ascii (by decide) .nil))

theorem wellFormed_preceded {α : Type} {code : α → JsString} {as : List α}
    (each : ∀ a ∈ as, WellFormed (code a)) : WellFormed (preceded code 0x2C as) := by
  induction as with
  | nil => exact .nil
  | cons a as ih =>
    rw [List.forall_mem_cons] at each
    rw [preceded, List.flatMap_cons]
    exact .append (.cons_ascii (by decide) each.1) (ih each.2)

theorem wellFormed_memberText {m : JsString × Json} (value : WellFormed m.2.stringify) :
    WellFormed (Json.memberText m) :=
  .append (.append (wellFormed_quote m.1) (.cons_ascii (by decide) .nil)) value

/-- The text of a value has surrogates in pairs only: others are escaped. -/
theorem wellFormed_stringify {v : Json} (finite : v.IsFinite) : WellFormed v.stringify := by
  induction finite with
  | null =>
    rw [Json.stringify]
    exact wellFormed_of_all (by decide)
  | bool b =>
    rw [Json.stringify]
    cases b <;> exact wellFormed_of_all (by decide)
  | num x =>
    rw [Json.stringify]
    obtain ⟨s, d, literal, written⟩ := toText_literal x
    have ascii : ∀ c ∈ s, c.val < 0x80 := by
      intro c member
      rcases literal.units c member with digit | sign | rfl | rfl
      · obtain ⟨d, small, rfl⟩ := exists_digitUnit digit
        rw [digitUnit_val (by omega), if_pos small]
        omega
      · simp only [isSign, Bool.or_eq_true, decide_eq_true_eq] at sign
        rcases sign with rfl | rfl <;> decide
      · decide
      · decide
    rcases written with ⟨same, -⟩ | ⟨same, -⟩
    · rw [same]
      exact wellFormed_of_ascii ascii
    · rw [same]
      exact .cons_ascii (by decide) (wellFormed_of_ascii ascii)
  | str s =>
    rw [Json.stringify]
    exact wellFormed_quote s
  | @arr vs each ih =>
    rw [Json.stringify]
    refine .append (.cons_ascii (by decide) ?_) (.cons_ascii (by decide) .nil)
    cases vs with
    | nil =>
      rw [Json.stringifyElements]
      exact .nil
    | cons v vs =>
      rw [List.forall_mem_cons] at ih
      rw [Json.stringifyElements_cons]
      exact ih.1.append (wellFormed_preceded ih.2)
  | @obj ms each ih =>
    rw [Json.stringify]
    refine .append (.cons_ascii (by decide) ?_) (.cons_ascii (by decide) .nil)
    cases ms with
    | nil =>
      rw [Json.stringifyMembers]
      exact .nil
    | cons m ms =>
      rw [List.forall_mem_cons] at ih
      rw [Json.stringifyMembers_cons]
      exact (wellFormed_memberText ih.1).append
        (wellFormed_preceded fun m member => wellFormed_memberText (ih.2 m member))

/-- A value sent as UTF-8 is the value that is received. -/
theorem parse_utf8 {v : Json} (finite : v.IsFinite) :
    Json.parse (utf8Decode (utf8Encode v.stringify)) = some v := by
  rw [utf8Decode_utf8Encode (wellFormed_stringify finite), Json.parse_stringify finite]

end Js
