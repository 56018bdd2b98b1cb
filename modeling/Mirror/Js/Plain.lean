import Mirror.Js.Json

/-!
JSON texts as a prefix code. A text of strings without escapes, lists and objects of them and the
number zero tells where it ends, so that the value can be told from the text.
-/
namespace Js

/-! ### Prefix codes -/

section

variable {α : Type} {code : α → JsString} {good : α → Prop} {sep close : CodeUnit} {t t' : JsString}

/-- Whatever follows it, the code of `a` is taken for no other one. -/
def Decodes (code : α → JsString) (good : α → Prop) (a : α) : Prop :=
  ∀ a' t t', good a' → code a ++ t = code a' ++ t' → a = a' ∧ t = t'

/-- Each element after a separator. -/
def preceded (code : α → JsString) (sep : CodeUnit) (as : List α) : JsString :=
  as.flatMap fun a => sep :: code a

theorem preceded_decodes (other : close ≠ sep) {as as' : List α}
    (decodes : ∀ a ∈ as, Decodes code good a) (good' : ∀ a ∈ as', good a)
    (same : preceded code sep as ++ close :: t = preceded code sep as' ++ close :: t') :
    as = as' ∧ t = t' := by
  induction as generalizing as' with
  -- no element left: the text goes on with the bracket, not with a separator
  | nil =>
    cases as' with
    | nil => exact ⟨rfl, (List.cons.inj same).2⟩
    | cons a' as' => exact absurd (List.cons.inj same).1 other
  | cons a as ih =>
    cases as' with
    | nil => exact absurd (List.cons.inj same).1.symm other
    | cons a' as' =>
      rw [List.forall_mem_cons] at decodes good'
      simp only [preceded, List.flatMap_cons, List.cons_append, List.append_assoc] at same
      obtain ⟨rfl, rest⟩ := decodes.1 a' _ _ good'.1 (List.cons.inj same).2
      obtain ⟨rfl, ends⟩ := ih decodes.2 good'.2 rest
      exact ⟨rfl, ends⟩

/-- A list between brackets: its elements with separators between them. -/
theorem enclosed_decodes {join : List α → JsString} (joinNil : join [] = [])
    (joinCons : ∀ a as, join (a :: as) = code a ++ preceded code sep as) (other : close ≠ sep)
    (starts : ∀ a, good a → ∃ c rest, code a = c :: rest ∧ c ≠ close) {as as' : List α}
    (decodes : ∀ a ∈ as, Decodes code good a) (allGood : ∀ a ∈ as, good a)
    (good' : ∀ a ∈ as', good a) (same : join as ++ close :: t = join as' ++ close :: t') :
    as = as' ∧ t = t' := by
  cases as with
  | nil =>
    cases as' with
    | nil =>
      rw [joinNil] at same
      exact ⟨rfl, (List.cons.inj same).2⟩
    | cons a' as' =>
      -- the text of an element does not begin with the bracket
      obtain ⟨c, rest, starts, differ⟩ := starts a' (good' a' List.mem_cons_self)
      rw [joinNil, joinCons, starts] at same
      exact absurd (List.cons.inj same).1.symm differ
  | cons a as =>
    cases as' with
    | nil =>
      obtain ⟨c, rest, starts, differ⟩ := starts a (allGood a List.mem_cons_self)
      rw [joinNil, joinCons, starts] at same
      exact absurd (List.cons.inj same).1 differ
    | cons a' as' =>
      rw [List.forall_mem_cons] at decodes good'
      rw [joinCons, joinCons, List.append_assoc, List.append_assoc] at same
      obtain ⟨rfl, rest⟩ := decodes.1 a' _ _ good'.1 same
      obtain ⟨rfl, ends⟩ := preceded_decodes other decodes.2 good'.2 rest
      exact ⟨rfl, ends⟩

end

/-! ### Strings -/

/-- A character of ASCII that a string literal takes as it is. -/
def IsPlainUnit (c : CodeUnit) : Prop := 0x20 ≤ c.val ∧ c.val < 0x7F ∧ c ≠ 0x22 ∧ c ≠ 0x5C

instance (c : CodeUnit) : Decidable (IsPlainUnit c) :=
  inferInstanceAs (Decidable (_ ∧ _ ∧ _ ∧ _))

def IsPlainText (s : JsString) : Prop := ∀ c ∈ s, IsPlainUnit c

instance (s : JsString) : Decidable (IsPlainText s) :=
  inferInstanceAs (Decidable (∀ c ∈ s, IsPlainUnit c))

namespace Json

theorem quoteUnit_plain {c : CodeUnit} (plain : IsPlainUnit c) : quoteUnit c = [c] := by
  obtain ⟨low, high, quote, backslash⟩ := plain
  have small : ∀ d : CodeUnit, d.val < 0x20 → c ≠ d := by
    rintro d below rfl
    omega
  rw [quoteUnit, if_neg quote, if_neg backslash, if_neg (small _ (by decide)),
    if_neg (small _ (by decide)), if_neg (small _ (by decide)), if_neg (small _ (by decide)),
    if_neg (small _ (by decide)), if_neg (by omega)]

theorem quoteUnits_plain {s : JsString} (plain : IsPlainText s) : quoteUnits s = s := by
  induction s with
  | nil => rfl
  | cons c rest ih =>
    obtain ⟨head, tail⟩ := List.forall_mem_cons.mp plain
    cases rest with
    | nil => exact quoteUnit_plain head
    | cons d rest =>
      -- no surrogate pair begins with an ASCII character
      have ascii : ¬(0xD800 ≤ c.val ∧ c.val < 0xDC00 ∧ 0xDC00 ≤ d.val ∧ d.val < 0xE000) := by
        have := head.2.1
        omega
      rw [quoteUnits, if_neg ascii, quoteUnit_plain head, ih tail]
      rfl

/-- A string literal ends at its second quotation mark. -/
theorem quote_decodes {s : JsString} (plain : IsPlainText s) : Decodes quote IsPlainText s := by
  intro s' t t' plain' same
  rw [quote, quote, quoteUnits_plain plain, quoteUnits_plain plain'] at same
  simp only [List.append_assoc, List.cons_append, List.nil_append, List.cons.injEq, true_and]
    at same
  -- after the first quotation mark the next one ends the literal, since none is inside
  induction s generalizing s' with
  | nil =>
    cases s' with
    | nil => exact ⟨rfl, (List.cons.inj same).2⟩
    | cons c' s' =>
      obtain ⟨head, -⟩ := List.forall_mem_cons.mp plain'
      exact absurd (List.cons.inj same).1.symm head.2.2.1
  | cons c s ih =>
    obtain ⟨head, tail⟩ := List.forall_mem_cons.mp plain
    cases s' with
    | nil => exact absurd (List.cons.inj same).1 head.2.2.1
    | cons c' s' =>
      obtain ⟨-, tail'⟩ := List.forall_mem_cons.mp plain'
      obtain ⟨rfl, rest⟩ := List.cons.inj same
      obtain ⟨rfl, ends⟩ := ih tail s' tail' rest
      exact ⟨rfl, ends⟩

/-! ### Values -/

inductive IsPlain : Json → Prop
  | zero : IsPlain (.num (.ofRat 0))
  | bool (b : Bool) : IsPlain (.bool b)
  | str {s : JsString} (plain : IsPlainText s) : IsPlain (.str s)
  | arr {vs : List Json} (plain : ∀ v ∈ vs, IsPlain v) : IsPlain (.arr vs)
  | obj {ms : List (JsString × Json)} (keys : ∀ m ∈ ms, IsPlainText m.1)
      (values : ∀ m ∈ ms, IsPlain m.2) : IsPlain (.obj ms)

/-- A member of an object as it is written. -/
def memberText (m : JsString × Json) : JsString := quote m.1 ++ [0x3A] ++ stringify m.2

theorem stringify_zero : stringify (.num (.ofRat 0)) = [0x30] := by decide +kernel

theorem stringifyElements_cons (v : Json) (vs : List Json) :
    stringifyElements (v :: vs) = stringify v ++ preceded stringify 0x2C vs := by
  induction vs generalizing v with
  | nil =>
    rw [stringifyElements, preceded, List.flatMap_nil, List.append_nil]
  | cons w vs ih =>
    rw [stringifyElements, ih, preceded, preceded, List.flatMap_cons]
    simp only [List.append_assoc, List.cons_append, List.nil_append]

theorem stringifyMembers_cons (m : JsString × Json) (ms : List (JsString × Json)) :
    stringifyMembers (m :: ms) = memberText m ++ preceded memberText 0x2C ms := by
  induction ms generalizing m with
  | nil =>
    rw [stringifyMembers, preceded, List.flatMap_nil, List.append_nil, memberText]
  | cons n ms ih =>
    rw [stringifyMembers, ih, preceded, preceded, List.flatMap_cons]
    simp only [memberText, List.append_assoc, List.cons_append, List.nil_append]

/-- The first character of a plain value. -/
def lead : Json → CodeUnit
  | .bool true => 0x74
  | .bool false => 0x66
  | .str _ => 0x22
  | .arr _ => 0x5B
  | .obj _ => 0x7B
  | .null | .num _ => 0x30

theorem stringify_lead {v : Json} (plain : IsPlain v) :
    ∃ rest, stringify v = lead v :: rest := by
  cases plain with
  | zero => exact ⟨[], stringify_zero⟩
  | bool b =>
    cases b with
    | true => exact ⟨_, by rw [stringify]; rfl⟩
    | false => exact ⟨_, by rw [stringify]; rfl⟩
  | str => exact ⟨_, by rw [stringify, quote]; rfl⟩
  | arr | obj => exact ⟨_, by rw [stringify]; rfl⟩

/-- No plain value begins like the end of a list. -/
theorem lead_ne_close (v : Json) : lead v ≠ 0x5D := by
  simp only [lead]
  split <;> decide

theorem memberText_decodes {m : JsString × Json} (key : IsPlainText m.1)
    (value : Decodes stringify IsPlain m.2) :
    Decodes memberText (fun m => IsPlainText m.1 ∧ IsPlain m.2) m := by
  obtain ⟨k, v⟩ := m
  rintro ⟨k', v'⟩ t t' ⟨key', value'⟩ same
  simp only [memberText, List.append_assoc] at same
  obtain ⟨rfl, rest⟩ := quote_decodes key k' _ _ key' same
  obtain ⟨rfl, ends⟩ := value v' _ _ value' (List.cons.inj rest).2
  exact ⟨rfl, ends⟩

theorem lead_eq {v v' : Json} {t t' : JsString} (plain : IsPlain v) (plain' : IsPlain v')
    (same : stringify v ++ t = stringify v' ++ t') : lead v = lead v' := by
  obtain ⟨rest, starts⟩ := stringify_lead plain
  obtain ⟨rest', starts'⟩ := stringify_lead plain'
  rw [starts, starts'] at same
  exact (List.cons.inj same).1

theorem elements_decode {vs vs' : List Json} {t t' : JsString}
    (decodes : ∀ v ∈ vs, Decodes stringify IsPlain v) (plain : ∀ v ∈ vs, IsPlain v)
    (plain' : ∀ v ∈ vs', IsPlain v)
    (same : stringify (.arr vs) ++ t = stringify (.arr vs') ++ t') : vs = vs' ∧ t = t' := by
  rw [stringify, stringify] at same
  simp only [List.append_assoc, List.cons_append, List.nil_append, List.cons.injEq, true_and]
    at same
  have starts : ∀ v, IsPlain v → ∃ c rest, stringify v = c :: rest ∧ c ≠ 0x5D := by
    intro v plain
    obtain ⟨rest, starts⟩ := stringify_lead plain
    exact ⟨lead v, rest, starts, lead_ne_close v⟩
  exact enclosed_decodes (by rw [stringifyElements]) stringifyElements_cons (by decide) starts
    decodes plain plain' same

theorem members_decode {ms ms' : List (JsString × Json)} {t t' : JsString}
    (decodes : ∀ m ∈ ms, Decodes memberText (fun m => IsPlainText m.1 ∧ IsPlain m.2) m)
    (plain : ∀ m ∈ ms, IsPlainText m.1 ∧ IsPlain m.2)
    (plain' : ∀ m ∈ ms', IsPlainText m.1 ∧ IsPlain m.2)
    (same : stringify (.obj ms) ++ t = stringify (.obj ms') ++ t') : ms = ms' ∧ t = t' := by
  rw [stringify, stringify] at same
  simp only [List.append_assoc, List.cons_append, List.nil_append, List.cons.injEq, true_and]
    at same
  -- every member begins with the quotation mark of its key
  have starts : ∀ m : JsString × Json, IsPlainText m.1 ∧ IsPlain m.2 →
      ∃ c rest, memberText m = c :: rest ∧ c ≠ 0x7D := by
    intro m _
    exact ⟨0x22, _, rfl, by decide⟩
  exact enclosed_decodes (by rw [stringifyMembers]) stringifyMembers_cons (by decide) starts
    decodes plain plain' same

/-- The text of a plain value tells the value, and where the text ends. -/
theorem stringify_decodes {v : Json} (plain : IsPlain v) : Decodes stringify IsPlain v := by
  -- the first character tells the kind of the value; within a kind the parts decode
  induction plain with
  | zero =>
    intro v' t t' plain' same
    have leads := lead_eq .zero plain' same
    cases plain' with
    | zero => exact ⟨rfl, List.append_cancel_left same⟩
    | bool b => cases b <;> simp [lead] at leads
    | str | arr | obj => simp [lead] at leads
  | bool b =>
    intro v' t t' plain' same
    have leads := lead_eq (.bool b) plain' same
    cases plain' with
    | bool b' =>
      have equal : b = b' := by
        cases b <;> cases b' <;> simp [lead] at leads ⊢
      subst equal
      exact ⟨rfl, List.append_cancel_left same⟩
    | zero | str | arr | obj => cases b <;> simp [lead] at leads
  | str plain =>
    intro v' t t' plain' same
    have leads := lead_eq (.str plain) plain' same
    cases plain' with
    | str plain' =>
      rw [stringify, stringify] at same
      obtain ⟨rfl, ends⟩ := quote_decodes plain _ _ _ plain' same
      exact ⟨rfl, ends⟩
    | bool b => cases b <;> simp [lead] at leads
    | zero | arr | obj => simp [lead] at leads
  | arr plain ih =>
    intro v' t t' plain' same
    have leads := lead_eq (.arr plain) plain' same
    cases plain' with
    | arr plain' =>
      obtain ⟨rfl, ends⟩ := elements_decode ih plain plain' same
      exact ⟨rfl, ends⟩
    | bool b => cases b <;> simp [lead] at leads
    | zero | str | obj => simp [lead] at leads
  | obj keys values ih =>
    intro v' t t' plain' same
    have leads := lead_eq (.obj keys values) plain' same
    cases plain' with
    | obj keys' values' =>
      obtain ⟨rfl, ends⟩ := members_decode (fun m member => memberText_decodes (keys m member)
        (ih m member)) (fun m member => ⟨keys m member, values m member⟩)
        (fun m member => ⟨keys' m member, values' m member⟩) same
      exact ⟨rfl, ends⟩
    | bool b => cases b <;> simp [lead] at leads
    | zero | str | arr => simp [lead] at leads

theorem stringify_inj {v v' : Json} (plain : IsPlain v) (plain' : IsPlain v')
    (same : stringify v = stringify v') : v = v' :=
  (stringify_decodes plain v' [] [] plain' (by rw [same])).1

/-! ### Bytes -/

theorem preceded_ascii {α : Type} {code : α → JsString} {sep : CodeUnit} {as : List α}
    (first : sep.val < 0x80) (each : ∀ a ∈ as, ∀ c ∈ code a, c.val < 0x80) :
    ∀ c ∈ preceded code sep as, c.val < 0x80 := by
  intro c member
  obtain ⟨a, among, here⟩ := List.mem_flatMap.mp member
  rcases List.mem_cons.mp here with rfl | later
  · exact first
  · exact each a among c later

theorem quote_ascii {s : JsString} (plain : IsPlainText s) : ∀ c ∈ quote s, c.val < 0x80 := by
  intro c member
  rw [quote, quoteUnits_plain plain] at member
  simp only [List.mem_append, List.mem_singleton] at member
  rcases member with (rfl | inside) | rfl
  · decide
  · have := (plain c inside).2.1
    omega
  · decide

theorem memberText_ascii {m : JsString × Json} (key : IsPlainText m.1)
    (value : ∀ c ∈ stringify m.2, c.val < 0x80) : ∀ c ∈ memberText m, c.val < 0x80 := by
  intro c member
  simp only [memberText, List.mem_append, List.mem_singleton] at member
  rcases member with (inKey | rfl) | inValue
  · exact quote_ascii key c inKey
  · decide
  · exact value c inValue

theorem stringify_ascii {v : Json} (plain : IsPlain v) : ∀ c ∈ stringify v, c.val < 0x80 := by
  induction plain with
  | zero =>
    rw [stringify_zero, List.forall_mem_singleton]
    decide
  | bool b =>
    have ascii : (text (if b then "true" else "false")).all (fun c => c.val < 0x80) = true := by
      cases b <;> decide
    intro c member
    rw [stringify] at member
    exact of_decide_eq_true (List.all_eq_true.mp ascii c member)
  | str plain =>
    rw [stringify]
    exact quote_ascii plain
  | @arr vs plain ih =>
    intro c member
    rw [stringify] at member
    simp only [List.mem_append, List.mem_singleton] at member
    rcases member with (rfl | inside) | rfl
    · decide
    · cases vs with
      | nil =>
        rw [stringifyElements] at inside
        cases inside
      | cons v vs =>
        rw [stringifyElements_cons, List.mem_append] at inside
        rw [List.forall_mem_cons] at ih
        exact inside.elim (ih.1 c) (preceded_ascii (by decide) ih.2 c)
    · decide
  | @obj ms keys values ih =>
    intro c member
    rw [stringify] at member
    simp only [List.mem_append, List.mem_singleton] at member
    rcases member with (rfl | inside) | rfl
    · decide
    · have each : ∀ m ∈ ms, ∀ c ∈ memberText m, c.val < 0x80 :=
        fun m member => memberText_ascii (keys m member) (ih m member)
      cases ms with
      | nil =>
        rw [stringifyMembers] at inside
        cases inside
      | cons m ms =>
        rw [stringifyMembers_cons, List.mem_append] at inside
        rw [List.forall_mem_cons] at each
        exact inside.elim (each.1 c) (preceded_ascii (by decide) each.2 c)
    · decide

end Json

/-- In UTF-8 a character of ASCII is one byte, its own code. -/
theorem utf8Encode_ascii {s : JsString} (ascii : ∀ c ∈ s, c.val < 0x80) :
    utf8Encode s = s.map fun c => Fin.ofNat _ c.val := by
  have byte : ∀ c : CodeUnit, c.val < 0x80 →
      encodePoint (if 0xD800 ≤ c.val ∧ c.val < 0xE000 then replacement else c.val) =
        [Fin.ofNat _ c.val] := by
    intro c small
    rw [if_neg (by omega), encodePoint, if_pos small]
  induction s with
  | nil => rfl
  | cons c rest ih =>
    obtain ⟨head, tail⟩ := List.forall_mem_cons.mp ascii
    cases rest with
    | nil => exact byte c head
    | cons d rest =>
      rw [utf8Encode, if_neg (by omega), byte c head, ih tail]
      rfl

theorem utf8Encode_inj {s s' : JsString} (ascii : ∀ c ∈ s, c.val < 0x80)
    (ascii' : ∀ c ∈ s', c.val < 0x80) (same : utf8Encode s = utf8Encode s') : s = s' := by
  rw [utf8Encode_ascii ascii, utf8Encode_ascii ascii'] at same
  -- the bytes are the code units, so they can be read back
  have undo : ∀ s : JsString, (∀ c ∈ s, c.val < 0x80) →
      (s.map fun c => Fin.ofNat 256 c.val).map (fun b => Fin.ofNat 65536 b.val) = s := by
    intro s ascii
    rw [List.map_map]
    conv_rhs => rw [← List.map_id s]
    apply List.map_congr_left
    intro c member
    have small := ascii c member
    apply Fin.ext
    simp only [Function.comp_apply, Fin.val_ofNat, id_eq]
    omega
  rw [← undo s ascii, same, undo s' ascii']

end Js
