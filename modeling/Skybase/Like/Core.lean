import Mathlib.Data.List.Infix

/-!
# Patterns with wildcards

Patterns in which one symbol stands for any run, another one for any single
symbol, and a third one makes the symbol after it literal.  Symbols are compared
after folding, such as to lower case.  A literal that is escaped and put between
two wildcards for runs is a search for the literal; one that is not escaped is
so only if it contains none of the three symbols.
-/

namespace Skybase.Like

universe u v

variable {α : Type u} {β : Type v}

/-- The symbols with a meaning of their own. -/
structure Wildcards (α : Type u) where
  any : α
  one : α
  escape : α

/-- What a pattern asks of a text, piece by piece. -/
inductive Token (α : Type u) where
  | any
  | one
  | literal (symbol : α)
deriving DecidableEq

/-- A symbol with a meaning of its own. -/
def Wildcards.IsSpecial (wildcards : Wildcards α) (symbol : α) : Prop :=
  symbol = wildcards.any ∨ symbol = wildcards.one ∨ symbol = wildcards.escape

section Patterns

variable [DecidableEq α] (wildcards : Wildcards α)

instance (symbol : α) : Decidable (wildcards.IsSpecial symbol) :=
  inferInstanceAs (Decidable (_ ∨ _ ∨ _))

/-- The tokens of a pattern, unless it ends in the escape symbol. -/
def tokens : List α → Option (List (Token α))
  | [] => some []
  | [symbol] =>
      if symbol = wildcards.escape then none
      else if symbol = wildcards.any then some [.any]
      else if symbol = wildcards.one then some [.one]
      else some [.literal symbol]
  | symbol :: next :: rest =>
      if symbol = wildcards.escape then (tokens rest).map (.literal next :: ·)
      else if symbol = wildcards.any then (tokens (next :: rest)).map (.any :: ·)
      else if symbol = wildcards.one then (tokens (next :: rest)).map (.one :: ·)
      else (tokens (next :: rest)).map (.literal symbol :: ·)

/-- The literal pattern of a text. -/
def escapeLiteral (text : List α) : List α :=
  text.flatMap fun symbol =>
    if wildcards.IsSpecial symbol then [wildcards.escape, symbol] else [symbol]

variable [DecidableEq β] (fold : α → β)

/-- Whether a text is made of the pieces that the tokens ask for. -/
def accepts : List (Token α) → List α → Bool
  | [], text => text.isEmpty
  | .any :: rest, text => text.tails.any (accepts rest)
  | .one :: _, [] => false
  | .one :: rest, _ :: text => accepts rest text
  | .literal _ :: _, [] => false
  | .literal symbol :: rest, first :: text => decide (fold symbol = fold first) && accepts rest text

/-- Whether a text matches a pattern. -/
def isLike (pattern text : List α) : Bool :=
  match tokens wildcards pattern with
  | some parsed => accepts fold parsed text
  | none => false

end Patterns

section Runs

variable [DecidableEq β] {fold : α → β}

theorem accepts_any_iff (rest : List (Token α)) (text : List α) :
    accepts fold (.any :: rest) text = true ↔ ∃ front back, text = front ++ back ∧
      accepts fold rest back = true := by
  rw [accepts, List.any_eq_true]
  constructor
  · rintro ⟨back, mem, accepted⟩
    obtain ⟨front, rfl⟩ := (List.mem_tails _ _).mp mem
    exact ⟨front, back, rfl, accepted⟩
  · rintro ⟨front, back, rfl, accepted⟩
    exact ⟨back, (List.mem_tails _ _).mpr (List.suffix_append front back), accepted⟩

/-- The tokens of a literal take away a text that folds to the same. -/
theorem accepts_literals_iff (literal : List α) (rest : List (Token α)) (text : List α) :
    accepts fold (literal.map .literal ++ rest) text = true ↔ ∃ front back, text = front ++ back ∧
      literal.map fold = front.map fold ∧ accepts fold rest back = true := by
  induction literal generalizing text with
  | nil =>
      constructor
      · intro accepted
        exact ⟨[], text, rfl, rfl, accepted⟩
      · rintro ⟨front, back, rfl, same, accepted⟩
        obtain rfl := List.map_eq_nil_iff.mp same.symm
        exact accepted
  | cons symbol literal ih =>
      cases text with
      | nil =>
          constructor
          · intro accepted
            exact nomatch accepted
          · rintro ⟨front, back, empty, same, -⟩
            obtain ⟨rfl, -⟩ := List.append_eq_nil_iff.mp empty.symm
            exact nomatch same
      | cons first text =>
          rw [List.map_cons, List.cons_append, accepts, Bool.and_eq_true, decide_eq_true_iff, ih]
          constructor
          · rintro ⟨folded, front, back, rfl, same, accepted⟩
            exact ⟨first :: front, back, rfl, by rw [List.map_cons, List.map_cons, folded, same],
              accepted⟩
          · rintro ⟨front, back, text_eq, same, accepted⟩
            cases front with
            | nil => exact nomatch same
            | cons head front =>
                rw [List.cons_append, List.cons.injEq] at text_eq
                obtain ⟨rfl, rfl⟩ := text_eq
                rw [List.map_cons, List.map_cons, List.cons.injEq] at same
                exact ⟨same.1, front, back, rfl, same.2, accepted⟩

/-- A literal between two wildcards for runs is searched for. -/
theorem accepts_search_iff (literal text : List α) :
    accepts fold (.any :: (literal.map .literal ++ [.any])) text = true ↔
      literal.map fold <:+: text.map fold := by
  rw [accepts_any_iff]
  simp only [accepts_literals_iff, accepts_any_iff]
  constructor
  · rintro ⟨front, _, rfl, middle, back, rfl, same, -⟩
    exact ⟨front.map fold, back.map fold, by
      rw [same, List.map_append, List.map_append, List.append_assoc]⟩
  · rintro ⟨front, back, same⟩
    obtain ⟨text₁, text₂, rfl, same₁, same₂⟩ := List.map_eq_append_iff.mp same.symm
    obtain ⟨text₃, text₄, rfl, same₃, same₄⟩ := List.map_eq_append_iff.mp same₁
    exact ⟨text₃, text₄ ++ text₂, List.append_assoc _ _ _, text₄, text₂, rfl, same₄.symm, text₂, [],
      (List.append_nil _).symm, rfl⟩

end Runs

section Literals

variable [DecidableEq α] {wildcards : Wildcards α}

theorem tokens_escape (symbol : α) (rest : List α) :
    tokens wildcards (wildcards.escape :: symbol :: rest) =
      (tokens wildcards rest).map (.literal symbol :: ·) := by
  rw [tokens, if_pos rfl]

theorem tokens_plain {symbol : α} (plain : ¬ wildcards.IsSpecial symbol) (rest : List α) :
    tokens wildcards (symbol :: rest) = (tokens wildcards rest).map (.literal symbol :: ·) := by
  rw [Wildcards.IsSpecial, not_or, not_or] at plain
  obtain ⟨notAny, notOne, notEscape⟩ := plain
  cases rest with
  | nil => simp [tokens, notEscape, notAny, notOne]
  | cons next rest => rw [tokens, if_neg notEscape, if_neg notAny, if_neg notOne]

theorem tokens_any (distinct : wildcards.any ≠ wildcards.escape) (rest : List α) :
    tokens wildcards (wildcards.any :: rest) = (tokens wildcards rest).map (.any :: ·) := by
  cases rest with
  | nil => simp [tokens, distinct]
  | cons next rest => rw [tokens, if_neg distinct, if_pos rfl]

/-- An escaped text is read as its symbols. -/
theorem tokens_escapeLiteral (text rest : List α) :
    tokens wildcards (escapeLiteral wildcards text ++ rest) =
      (tokens wildcards rest).map (text.map .literal ++ ·) := by
  induction text with
  | nil =>
      rw [escapeLiteral, List.flatMap_nil, List.nil_append]
      exact Option.map_id'.symm
  | cons symbol text ih =>
      rw [escapeLiteral, List.flatMap_cons, ← escapeLiteral, List.append_assoc]
      by_cases special : wildcards.IsSpecial symbol
      · rw [if_pos special, List.cons_append, List.singleton_append, tokens_escape, ih,
          Option.map_map]
        rfl
      · rw [if_neg special, List.singleton_append, tokens_plain special, ih, Option.map_map]
        rfl

variable [DecidableEq β] {fold : α → β}

/-- The pattern of an escaped text between two wildcards for runs is a search for the text. -/
theorem isLike_escapeLiteral_iff (distinct : wildcards.any ≠ wildcards.escape)
    (literal text : List α) :
    isLike wildcards fold
        (wildcards.any :: (escapeLiteral wildcards literal ++ [wildcards.any])) text = true ↔
      literal.map fold <:+: text.map fold := by
  have last : tokens wildcards [wildcards.any] = some [.any] := tokens_any distinct []
  rw [isLike, tokens_any distinct, tokens_escapeLiteral, last]
  exact accepts_search_iff literal text

theorem tokens_one (notEscape : wildcards.one ≠ wildcards.escape)
    (notAny : wildcards.one ≠ wildcards.any) (rest : List α) :
    tokens wildcards (wildcards.one :: rest) = (tokens wildcards rest).map (.one :: ·) := by
  cases rest with
  | nil => simp [tokens, notEscape, notAny]
  | cons next rest => rw [tokens, if_neg notEscape, if_neg notAny, if_pos rfl]

/-- A text without special symbols is its own escape. -/
theorem escapeLiteral_of_plain {text : List α}
    (plain : ∀ symbol ∈ text, ¬ wildcards.IsSpecial symbol) :
    escapeLiteral wildcards text = text := by
  induction text with
  | nil => rfl
  | cons symbol text ih =>
      rw [List.forall_mem_cons] at plain
      rw [escapeLiteral, List.flatMap_cons, ← escapeLiteral, if_neg plain.1, ih plain.2]
      rfl

end Literals

/-! ## Literals that are not escaped -/

section Samples

variable (filler : α)

/-- A shortest text that has the pieces that the tokens ask for. -/
def sample : List (Token α) → List α
  | [] => []
  | .any :: rest => sample rest
  | .one :: rest => filler :: sample rest
  | .literal symbol :: rest => symbol :: sample rest

variable {filler} {fold : α → β}

theorem accepts_sample [DecidableEq β] (parsed : List (Token α)) :
    accepts fold parsed (sample filler parsed) = true := by
  induction parsed with
  | nil => rfl
  | cons token rest ih =>
      cases token with
      | any => exact (accepts_any_iff rest _).mpr ⟨[], _, rfl, ih⟩
      | one => exact ih
      | literal symbol =>
          rw [sample, accepts, Bool.and_eq_true]
          exact ⟨decide_eq_true rfl, ih⟩

variable [DecidableEq α] {wildcards : Wildcards α}

/-- What the tokens of a literal and a final wildcard are a sample of: a text that is not longer
than the literal, and that is not the literal where a symbol of it is special. -/
structure Sampled (wildcards : Wildcards α) (fold : α → β) (filler : α) (literal : List α)
    (parsed : List (Token α)) : Prop where
  tokens_eq : tokens wildcards (literal ++ [wildcards.any]) = some parsed
  length_le : (sample filler parsed).length ≤ literal.length
  plain : literal.map fold = (sample filler parsed).map fold →
    ∀ symbol ∈ literal, ¬ wildcards.IsSpecial symbol
  mem : ∀ symbol ∈ sample filler parsed,
    symbol ∈ literal ∨ symbol = filler ∨ symbol = wildcards.any

namespace Sampled

variable {literal : List α} {parsed : List (Token α)}

theorem nil (distinct : wildcards.any ≠ wildcards.escape) :
    Sampled wildcards fold filler [] [.any] where
  tokens_eq := tokens_any distinct []
  length_le := Nat.le_refl 0
  plain _ _ mem := nomatch mem
  mem _ mem := nomatch mem

theorem cons_plain (sampled : Sampled wildcards fold filler literal parsed) {symbol : α}
    (plain : ¬ wildcards.IsSpecial symbol) :
    Sampled wildcards fold filler (symbol :: literal) (.literal symbol :: parsed) where
  tokens_eq := by rw [List.cons_append, tokens_plain plain, sampled.tokens_eq]; rfl
  length_le := Nat.succ_le_succ sampled.length_le
  plain same := by
    rw [sample, List.map_cons, List.map_cons, List.cons.injEq] at same
    exact List.forall_mem_cons.mpr ⟨plain, sampled.plain same.2⟩
  mem := by
    rw [sample, List.forall_mem_cons]
    exact ⟨.inl List.mem_cons_self,
      fun other mem => (sampled.mem other mem).imp_left (List.mem_cons_of_mem symbol)⟩

/-- A wildcard for runs is sampled by nothing. -/
theorem cons_any (sampled : Sampled wildcards fold filler literal parsed)
    (distinct : wildcards.any ≠ wildcards.escape) :
    Sampled wildcards fold filler (wildcards.any :: literal) (.any :: parsed) where
  tokens_eq := by rw [List.cons_append, tokens_any distinct, sampled.tokens_eq]; rfl
  length_le := sampled.length_le.trans (Nat.le_succ _)
  plain same := by
    have length := congrArg List.length same
    rw [List.length_map, List.length_map, sample, List.length_cons] at length
    have shorter := sampled.length_le
    omega
  mem other mem := (sampled.mem other mem).imp_left (List.mem_cons_of_mem _)

/-- A wildcard for a symbol is sampled by another symbol. -/
theorem cons_one (sampled : Sampled wildcards fold filler literal parsed)
    (notEscape : wildcards.one ≠ wildcards.escape) (notAny : wildcards.one ≠ wildcards.any)
    (differs : fold wildcards.one ≠ fold filler) :
    Sampled wildcards fold filler (wildcards.one :: literal) (.one :: parsed) where
  tokens_eq := by rw [List.cons_append, tokens_one notEscape notAny, sampled.tokens_eq]; rfl
  length_le := Nat.succ_le_succ sampled.length_le
  plain same := by
    rw [sample, List.map_cons, List.map_cons, List.cons.injEq] at same
    exact absurd same.1 differs
  mem := by
    rw [sample, List.forall_mem_cons]
    exact ⟨.inr (.inl rfl),
      fun other mem => (sampled.mem other mem).imp_left (List.mem_cons_of_mem _)⟩

/-- An escape and the symbol after it are sampled by the symbol alone. -/
theorem cons_escape (sampled : Sampled wildcards fold filler literal parsed) (next : α) :
    Sampled wildcards fold filler (wildcards.escape :: next :: literal)
      (.literal next :: parsed) where
  tokens_eq := by
    rw [List.cons_append, List.cons_append, tokens_escape, sampled.tokens_eq]
    rfl
  length_le := Nat.succ_le_succ (sampled.length_le.trans (Nat.le_succ _))
  plain same := by
    have length := congrArg List.length same
    rw [List.length_map, List.length_map, sample, List.length_cons, List.length_cons,
      List.length_cons] at length
    have shorter := sampled.length_le
    omega
  mem := by
    rw [sample, List.forall_mem_cons]
    exact ⟨.inl (List.mem_cons_of_mem _ List.mem_cons_self), fun other mem =>
      (sampled.mem other mem).imp_left fun inRest =>
        List.mem_cons_of_mem _ (List.mem_cons_of_mem next inRest)⟩

/-- An escape at the end makes the final wildcard literal. -/
theorem escape_end (differs : fold wildcards.escape ≠ fold wildcards.any) :
    Sampled wildcards fold filler [wildcards.escape] [.literal wildcards.any] where
  tokens_eq := tokens_escape wildcards.any []
  length_le := Nat.le_refl 1
  plain same := absurd (List.cons.inj same).1 differs
  mem _ mem := .inr (.inr (List.mem_singleton.mp mem))

end Sampled

theorem exists_sampled (differs : fold wildcards.escape ≠ fold wildcards.any)
    (fills : fold wildcards.one ≠ fold filler) (literal : List α) :
    ∃ parsed, Sampled wildcards fold filler literal parsed := by
  have distinct : wildcards.any ≠ wildcards.escape := fun same => differs (by rw [same])
  match literal with
  | [] => exact ⟨[.any], .nil distinct⟩
  | symbol :: rest =>
      by_cases isEscape : symbol = wildcards.escape
      · subst isEscape
        match rest with
        | [] => exact ⟨_, .escape_end differs⟩
        | next :: rest =>
            obtain ⟨parsed, sampled⟩ := exists_sampled differs fills rest
            exact ⟨_, sampled.cons_escape next⟩
      · obtain ⟨parsed, sampled⟩ := exists_sampled differs fills rest
        by_cases isAny : symbol = wildcards.any
        · subst isAny
          exact ⟨_, sampled.cons_any distinct⟩
        · by_cases isOne : symbol = wildcards.one
          · subst isOne
            exact ⟨_, sampled.cons_one isEscape isAny fills⟩
          · exact ⟨_, sampled.cons_plain (by rintro (rfl | rfl | rfl) <;> contradiction)⟩
termination_by literal.length

variable [DecidableEq β]

variable (filler) in
/-- A literal between two wildcards for runs is a search for it exactly if none of its symbols is
special; the texts may be restricted to those of allowed symbols. -/
theorem isLike_search_iff (differs : fold wildcards.escape ≠ fold wildcards.any)
    (fills : fold wildcards.one ≠ fold filler) {allowed : α → Prop} {literal : List α}
    (literalAllowed : ∀ symbol ∈ literal, allowed symbol) (fillerAllowed : allowed filler)
    (anyAllowed : allowed wildcards.any) :
    (∀ text, (∀ symbol ∈ text, allowed symbol) →
      (isLike wildcards fold (wildcards.any :: (literal ++ [wildcards.any])) text = true ↔
        literal.map fold <:+: text.map fold)) ↔
      ∀ symbol ∈ literal, ¬ wildcards.IsSpecial symbol := by
  have distinct : wildcards.any ≠ wildcards.escape := fun same => differs (by rw [same])
  constructor
  · intro searches
    obtain ⟨parsed, sampled⟩ := exists_sampled differs fills literal
    have accepted : isLike wildcards fold (wildcards.any :: (literal ++ [wildcards.any]))
        (sample filler parsed) = true := by
      rw [isLike, tokens_any distinct, sampled.tokens_eq]
      exact (accepts_any_iff parsed _).mpr ⟨[], _, rfl, accepts_sample parsed⟩
    have isAllowed : ∀ symbol ∈ sample filler parsed, allowed symbol := by
      intro symbol mem
      obtain inLiteral | rfl | rfl := sampled.mem symbol mem
      · exact literalAllowed symbol inLiteral
      · exact fillerAllowed
      · exact anyAllowed
    have found := (searches _ isAllowed).mp accepted
    -- the sample is not longer than the literal, so it can only contain it by being it
    refine sampled.plain (found.eq_of_length_le ?_)
    rw [List.length_map, List.length_map]
    exact sampled.length_le
  · intro plain text _
    rw [← isLike_escapeLiteral_iff distinct, escapeLiteral_of_plain plain]

end Samples

end Skybase.Like
