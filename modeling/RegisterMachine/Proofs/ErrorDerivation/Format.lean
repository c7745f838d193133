import Mathlib.Data.List.TakeWhile

set_option autoImplicit false

/-!
# Format strings

A format string is a sequence of pieces: characters, doubled braces, which stand for literal ones,
and placeholders, which name an argument and may say after a colon in which format it is shown.  It
is read from left to right, one piece at a time.

Reading is exact: it finds the pieces of which a text consists, and a text consists of pieces in one
way only (`scan_eq_some_iff`).  What is printed is put together from the pieces, with the text that
an argument is shown as in place of each placeholder.
-/

namespace RegisterMachine.ErrorDerivation

/-- A piece of a format string. -/
inductive Piece where
  /-- A character that stands for itself. -/
  | char (c : Char)
  /-- A doubled opening brace. -/
  | openBrace
  /-- A doubled closing brace. -/
  | closeBrace
  /-- The place of an argument, with the format in which it is shown if there is one. -/
  | placeholder (name : List Char) (format : Option (List Char))
  deriving DecidableEq, Repr

/-- A value to be shown: its text, in a format if there is one. -/
abbrev Shown := Option (List Char) → List Char

/-- A character that is not a brace. -/
def Plain (c : Char) : Prop := c ≠ '{' ∧ c ≠ '}'

instance : DecidablePred Plain := fun _ => inferInstanceAs (Decidable (_ ∧ _))

namespace Piece

/-- A piece as it is written. -/
def text : Piece → List Char
  | char c => [c]
  | openBrace => ['{', '{']
  | closeBrace => ['}', '}']
  | placeholder name none => '{' :: (name ++ ['}'])
  | placeholder name (some format) => '{' :: (name ++ ':' :: (format ++ ['}']))

/-- Pieces as they are written one after the other. -/
def texts (pieces : List Piece) : List Char := pieces.flatMap text

/-- Braces occur in the places meant for them only, and the first colon ends the name. -/
def WellFormed : Piece → Prop
  | char c => Plain c
  | openBrace | closeBrace => True
  | placeholder name format =>
    (∀ c ∈ name, Plain c) ∧ ':' ∉ name ∧ ∀ spec ∈ format, ∀ c ∈ spec, Plain c

/-- The placeholder with the given text between its braces. -/
def ofInside (inside : List Char) : Piece :=
  placeholder (inside.takeWhile (· != ':'))
    (match inside.dropWhile (· != ':') with
      | [] => none
      | _ :: format => some format)

/-- Reads one piece off the front of a text. -/
def read? : List Char → Option (Piece × List Char)
  | [] => none
  | c :: rest =>
    if c = '{' then
      if rest.head? = some '{' then some (openBrace, rest.tail)
      else
        match rest.dropWhile (Plain ·) with
        | '}' :: after => some (ofInside (rest.takeWhile (Plain ·)), after)
        | _ => none
    else if c = '}' then
      if rest.head? = some '}' then some (closeBrace, rest.tail) else none
    else some (char c, rest)

/-! ## One piece -/

variable {p : Piece} {rest : List Char} {pieces : List Piece}

@[simp] theorem texts_nil : texts [] = [] := rfl

@[simp] theorem texts_cons (p : Piece) (pieces : List Piece) :
    texts (p :: pieces) = p.text ++ texts pieces := rfl

theorem text_ne_nil (p : Piece) : p.text ≠ [] := by
  match p with
  | char c => simp [text]
  | openBrace => simp [text]
  | closeBrace => simp [text]
  | placeholder name none => simp [text]
  | placeholder name (some format) => simp [text]

/-- Text without colons is a name. -/
theorem ofInside_eq_of_not_mem {name : List Char} (h : ':' ∉ name) :
    ofInside name = placeholder name none := by
  have hname : ∀ c ∈ name, (c != ':') = true := fun c hc => by
    simpa using fun heq : c = ':' => h (heq ▸ hc)
  rw [ofInside, List.takeWhile_eq_self_iff.mpr hname, List.dropWhile_eq_nil_iff.mpr hname]

/-- The first colon ends the name. -/
theorem ofInside_append_colon {name : List Char} (h : ':' ∉ name) (format : List Char) :
    ofInside (name ++ ':' :: format) = placeholder name (some format) := by
  have hname : ∀ c ∈ name, (c != ':') = true := fun c hc => by
    simpa using fun heq : c = ':' => h (heq ▸ hc)
  rw [ofInside, List.takeWhile_append_of_pos hname, List.dropWhile_append_of_pos hname]
  simp

/-- Text is either a name or a name, a colon and a format. -/
theorem exists_name_of_inside (inside : List Char) :
    ∃ name, ':' ∉ name ∧ (inside = name ∨ ∃ format, inside = name ++ ':' :: format) := by
  refine ⟨inside.takeWhile (· != ':'), fun hmem => ?_, ?_⟩
  · simpa using List.mem_takeWhile_imp hmem
  · have hsplit := List.takeWhile_append_dropWhile (p := (· != ':')) (l := inside)
    cases hrest : inside.dropWhile (· != ':') with
    | nil =>
      rw [hrest, List.append_nil] at hsplit
      exact Or.inl hsplit.symm
    | cons c format =>
      have hcolon : c = ':' := by
        simpa [hrest] using List.head_dropWhile_not (l := inside) (· != ':') (by simp [hrest])
      rw [hrest, hcolon] at hsplit
      exact Or.inr ⟨format, hsplit.symm⟩

/-- What stands between braces is kept as it is. -/
theorem text_ofInside (inside : List Char) : (ofInside inside).text = '{' :: (inside ++ ['}']) := by
  obtain ⟨name, hname, rfl | ⟨format, rfl⟩⟩ := exists_name_of_inside inside
  · rw [ofInside_eq_of_not_mem hname]
    rfl
  · rw [ofInside_append_colon hname]
    simp [text]

theorem wellFormed_ofInside {inside : List Char} (h : ∀ c ∈ inside, Plain c) :
    (ofInside inside).WellFormed := by
  obtain ⟨name, hname, rfl | ⟨format, rfl⟩⟩ := exists_name_of_inside inside
  · rw [ofInside_eq_of_not_mem hname]
    exact ⟨h, hname, by simp⟩
  · rw [ofInside_append_colon hname]
    refine ⟨fun c hc => h c (by simp [hc]), hname, fun spec hspec c hc => ?_⟩
    obtain rfl := Option.mem_some_iff.mp hspec
    exact h c (by simp [hc])

/-- A placeholder ends at the first closing brace. -/
theorem read?_inside {inside : List Char} (h : ∀ c ∈ inside, Plain c) (rest : List Char) :
    read? ('{' :: (inside ++ '}' :: rest)) = some (ofInside inside, rest) := by
  have hinside : ∀ c ∈ inside, decide (Plain c) = true := fun c hc => decide_eq_true (h c hc)
  have hhead : (inside ++ '}' :: rest).head? ≠ some '{' := by
    cases inside with
    | nil => simp
    | cons c inside => simpa using (h c List.mem_cons_self).1
  rw [read?, if_pos rfl, if_neg hhead, List.dropWhile_append_of_pos hinside,
    List.takeWhile_append_of_pos hinside]
  simp [Plain]

/-- A piece is read completely, and nothing after it. -/
theorem read?_text_append (h : p.WellFormed) (rest : List Char) :
    read? (p.text ++ rest) = some (p, rest) := by
  match p, h with
  | char c, h => simp [text, read?, h.1, h.2]
  | openBrace, _ => simp [text, read?]
  | closeBrace, _ => simp [text, read?]
  | placeholder name none, h =>
    rw [← ofInside_eq_of_not_mem h.2.1, text_ofInside]
    simpa using read?_inside h.1 rest
  | placeholder name (some format), h =>
    have hinside : ∀ c ∈ name ++ ':' :: format, Plain c := fun c hc => by
      rw [List.mem_append, List.mem_cons] at hc
      rcases hc with hc | rfl | hc
      · exact h.1 c hc
      · exact ⟨by decide, by decide⟩
      · exact h.2.2 format rfl c hc
    rw [← ofInside_append_colon h.2.1, text_ofInside]
    simpa using read?_inside hinside rest

/-- Nothing is invented: what was read stands in front of the rest. -/
theorem eq_of_read? {source : List Char} (h : read? source = some (p, rest)) :
    source = p.text ++ rest ∧ p.WellFormed := by
  -- the cases are those of `read?`; the ones in which nothing is read are absurd
  revert h
  fun_cases read? source with
  | case1 => simp
  | case2 tail hdouble =>
    obtain ⟨after, rfl⟩ := List.head?_eq_some_iff.mp hdouble
    rintro ⟨⟩
    exact ⟨rfl, trivial⟩
  | case3 tail hdouble after hclose =>
    have hsplit := List.takeWhile_append_dropWhile (p := (Plain ·)) (l := tail)
    rintro ⟨⟩
    rw [text_ofInside]
    refine ⟨?_, wellFormed_ofInside fun c hc => ?_⟩
    · rw [hclose] at hsplit
      simp [hsplit]
    · simpa using List.mem_takeWhile_imp hc
  | case4 => simp
  | case5 tail hdouble =>
    obtain ⟨after, rfl⟩ := List.head?_eq_some_iff.mp hdouble
    rintro ⟨⟩
    exact ⟨rfl, trivial⟩
  | case6 => simp
  | case7 c tail hopen hclose =>
    rintro ⟨⟩
    exact ⟨rfl, hopen, hclose⟩

theorem length_lt_of_read? {source : List Char} (h : read? source = some (p, rest)) :
    rest.length < source.length := by
  have htext := List.length_pos_iff.mpr (text_ne_nil p)
  rw [(eq_of_read? h).1, List.length_append]
  omega

/-! ## All pieces -/

/-- The pieces of a text; none if it is not a format string. -/
def scan (source : List Char) : Option (List Piece) :=
  match source with
  | [] => some []
  | c :: tail =>
    match hread : read? (c :: tail) with
    | none => none
    | some (p, rest) =>
      have := length_lt_of_read? hread
      (scan rest).map (p :: ·)
termination_by source.length
decreasing_by exact this

theorem scan_eq_of_read? {source : List Char} (h : read? source = some (p, rest)) :
    scan source = (scan rest).map (p :: ·) := by
  cases source with
  | nil => cases h
  | cons c tail =>
    rw [scan]
    split
    next hnone => rw [hnone] at h; cases h
    next p' rest' hsome =>
      obtain ⟨rfl, rfl⟩ : p' = p ∧ rest' = rest := by simpa [hsome] using h
      rfl

/-- A text is read as certain pieces exactly if it is these pieces written one after the other. -/
theorem scan_eq_some_iff {source : List Char} :
    scan source = some pieces ↔ source = texts pieces ∧ ∀ p ∈ pieces, p.WellFormed := by
  constructor
  · intro h
    fun_induction scan source generalizing pieces with
    | case1 =>
      obtain rfl := Option.some.inj h
      exact ⟨rfl, by simp⟩
    | case2 => cases h
    | case3 c tail p rest hread _ ih =>
      obtain ⟨pieces, hrest, rfl⟩ := Option.map_eq_some_iff.mp h
      obtain ⟨rfl, hwell⟩ := ih hrest
      obtain ⟨hsource, hp⟩ := eq_of_read? hread
      exact ⟨hsource, List.forall_mem_cons.mpr ⟨hp, hwell⟩⟩
  · rintro ⟨rfl, hwell⟩
    induction pieces with
    | nil => rw [texts_nil, scan]
    | cons p pieces ih =>
      rw [List.forall_mem_cons] at hwell
      rw [texts_cons, scan_eq_of_read? (read?_text_append hwell.1 _), ih hwell.2]
      rfl

/-! ## What is printed -/

/-- What a piece is printed as; nothing if it refers to an argument that there is not. -/
def print? (argument? : List Char → Option Shown) : Piece → Option (List Char)
  | char c => some [c]
  | openBrace => some ['{']
  | closeBrace => some ['}']
  | placeholder name format => (argument? name).map (· format)

/-- What pieces are printed as. -/
def printAll? (argument? : List Char → Option Shown) : List Piece → Option (List Char)
  | [] => some []
  | p :: pieces =>
    (p.print? argument?).bind fun front => (printAll? argument? pieces).map (front ++ ·)

theorem printAll?_cons {argument? : List Char → Option Shown} {front back : List Char}
    (hfront : p.print? argument? = some front) (hback : printAll? argument? pieces = some back) :
    printAll? argument? (p :: pieces) = some (front ++ back) := by
  rw [printAll?, hfront, hback]
  rfl

end Piece

end RegisterMachine.ErrorDerivation
