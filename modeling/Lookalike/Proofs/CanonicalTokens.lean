-- What an operand becomes. Every rule of the chain leaves a token as it is or puts
-- the name of a class or of a group in its place; so once the rules leave those
-- names alone, no token changes when it runs through the chain again.
import Lookalike.Listing.Token
import Lookalike.Proofs.OrderedKeys

namespace Lookalike

namespace Token

/-- The names of the classes. -/
def classes : List String := [value, memory, sectionName, byte, literal, register]

/-- Operands that a rule is about: labels, plain numbers, memory operands, references to a section,
numbers in base 16, letters and strings, and what begins as a register. -/
inductive Caught (registers : List String) : List Char → Prop
  | label {c : Char} (cs : List Char) (h : c = '_' ∨ c = 'L') : Caught registers (c :: cs)
  | number {cs : List Char} (filled : cs ≠ []) (digits : ∀ c ∈ cs, '0' ≤ c ∧ c ≤ '9') :
    Caught registers cs
  | memory (cs : List Char) : Caught registers ('[' :: cs)
  | sectionName (cs : List Char) : Caught registers ('.' :: 't' :: 'e' :: 'x' :: 't' :: cs)
  | byte (cs : List Char) : Caught registers ('0' :: 'x' :: cs)
  | literal {c : Char} (cs : List Char) (h : c = '\x22' ∨ c = '\x27') : Caught registers (c :: cs)
  | register {a b : Char} (cs : List Char) (h : String.ofList [a, b] ∈ registers) :
    Caught registers (a :: b :: cs)

end Token

namespace Normalizer

/-! ## Chains of rules -/

section

variable {names : List String} {rules : List (String → String)}
  (leave : ∀ f ∈ rules, ∀ t, f t = t ∨ f t ∈ names)

include leave

/-- Rules that leave a token or put a name in its place do so one after the other. -/
theorem foldl_rules (t : String) :
    rules.foldl (fun t f => f t) t = t ∨ rules.foldl (fun t f => f t) t ∈ names := by
  induction rules generalizing t with
  | nil => exact .inl rfl
  | cons f rules ih =>
    obtain ⟨hf, hrules⟩ := List.forall_mem_cons.mp leave
    rw [List.foldl_cons]
    rcases ih hrules (f t) with hsame | hname
    · rw [hsame]
      exact hf t
    · exact .inr hname

/-- A name stays a name, and a token that one of the rules catches becomes one. -/
theorem foldl_rules_mem {t : String} (caught : t ∈ names ∨ ∃ f ∈ rules, f t ∈ names) :
    rules.foldl (fun t f => f t) t ∈ names := by
  induction rules generalizing t with
  | nil => simpa using caught
  | cons f rules ih =>
    obtain ⟨hf, hrules⟩ := List.forall_mem_cons.mp leave
    rw [List.foldl_cons]
    apply ih hrules
    rcases hf t with hsame | hname
    · rw [hsame]
      rcases caught with hname | ⟨g, hg, hcaught⟩
      · exact .inl hname
      · rcases List.mem_cons.mp hg with rfl | hg
        · exact .inl (hsame ▸ hcaught)
        · exact .inr ⟨g, hg, hcaught⟩
    · exact .inl hname

end

/-! ## Classes -/

/-- The rules for the classes in their order. -/
def classifiers (registers : List String) : List (String → String) :=
  [classifyValue, classifySection, classifyByte, classifyLiteral, classifyRegister registers]

/-- Each of them leaves a token or puts a class in its place. -/
theorem classifiers_leave {registers : List String} :
    ∀ f ∈ classifiers registers, ∀ t, f t = t ∨ f t ∈ Token.classes := by
  simp only [classifiers, List.forall_mem_cons]
  refine ⟨fun t => ?_, fun t => ?_, fun t => ?_, fun t => ?_, fun t => ?_, by simp⟩
  · unfold classifyValue
    split
    · exact .inr (by decide)
    · exact .inr (by decide)
    · exact .inr (by decide)
    · exact .inl rfl
    · split_ifs
      · exact .inr (by decide)
      · exact .inl rfl
  · unfold classifySection
    split
    · exact .inr (by decide)
    · exact .inl rfl
  · unfold classifyByte
    split
    · exact .inr (by decide)
    · exact .inl rfl
  · unfold classifyLiteral
    split
    · exact .inr (by decide)
    · exact .inr (by decide)
    · exact .inl rfl
  · unfold classifyRegister
    split
    · split_ifs
      · exact .inr (by decide)
      · exact .inl rfl
    · exact .inl rfl

/-- What a rule is about is caught by that rule, if it comes to it unchanged. -/
theorem exists_classifier {registers : List String} {operand : String}
    (caught : Token.Caught registers operand.toList) :
    ∃ f ∈ classifiers registers, f operand ∈ Token.classes := by
  simp only [classifiers, List.exists_mem_cons_iff]
  generalize hcs : operand.toList = cs at caught
  cases caught with
  | label cs h =>
    left
    unfold classifyValue
    rw [hcs]
    rcases h with rfl | rfl <;> simp [Token.classes]
  | number filled digits =>
    left
    unfold classifyValue
    rw [hcs]
    have hall : (cs.all fun c => '0' ≤ c && c ≤ '9') = true := by
      simpa using digits
    split
    · decide
    · decide
    · decide
    · exact absurd rfl filled
    · rw [if_pos hall]
      decide
  | memory cs =>
    left
    unfold classifyValue
    rw [hcs]
    simp [Token.classes]
  | sectionName cs =>
    right; left
    unfold classifySection
    rw [hcs]
    simp [Token.classes]
  | byte cs =>
    right; right; left
    unfold classifyByte
    rw [hcs]
    simp [Token.classes]
  | literal cs h =>
    right; right; right; left
    unfold classifyLiteral
    rw [hcs]
    rcases h with rfl | rfl <;> simp [Token.classes]
  | register cs h =>
    right; right; right; right; left
    unfold classifyRegister
    rw [hcs]
    dsimp only
    rw [if_pos (by simpa using h)]
    decide

/-! ## The chain of a normalizer -/

variable (n : Normalizer)

/-- The names that a token can get: the classes and the keys of the groups. -/
def names : List String := Token.classes ++ Ordered.keys n.rules.synonyms

/-- The rules in their order: those for the classes, and the groups. -/
def chain : List (String → String) :=
  classifiers n.rules.registers ++ n.rules.synonyms.map fun group t => collapse t group

theorem chain_leave : ∀ f ∈ n.chain, ∀ t, f t = t ∨ f t ∈ n.names := by
  intro f hf t
  rcases List.mem_append.mp hf with hf | hf
  · exact (classifiers_leave f hf t).imp_right (List.mem_append_left _)
  · obtain ⟨group, hgroup, rfl⟩ := List.mem_map.mp hf
    dsimp only
    unfold collapse
    split_ifs
    · exact .inr (List.mem_append_right _ (Ordered.mem_keys_of_mem hgroup))
    · exact .inl rfl

theorem operand?_eq {operand : String} (h : operand ≠ "") :
    n.operand? operand = some (n.chain.foldl (fun t f => f t) operand) := by
  unfold operand? chain classifiers
  rw [if_neg h, List.foldl_append, List.foldl_map]
  simp only [List.foldl_cons, List.foldl_nil]

/-- The token of an operand is a name, or the operand itself. -/
theorem operand?_cases {operand token : String} (h : n.operand? operand = some token) :
    token = operand ∨ token ∈ n.names := by
  have hfilled : operand ≠ "" := by
    rintro rfl
    cases h
  rw [n.operand?_eq hfilled] at h
  obtain rfl := Option.some.inj h
  exact foldl_rules n.chain_leave operand

theorem operand?_caught {operand token : String} (h : n.operand? operand = some token)
    (caught : Token.Caught n.rules.registers operand.toList) : token ∈ n.names := by
  have hfilled : operand ≠ "" := by
    rintro rfl
    cases h
  rw [n.operand?_eq hfilled] at h
  obtain rfl := Option.some.inj h
  obtain ⟨f, hf, hclass⟩ := exists_classifier caught
  exact foldl_rules_mem n.chain_leave
    (.inr ⟨f, List.mem_append_left _ hf, List.mem_append_left _ hclass⟩)

end Normalizer

/-- Once the rules leave the names of the classes and groups alone, they leave every token alone,
and the default rules do so. Whatever the rules are, an operand that is not empty has a token: a
class, a group or the operand itself, and the operand itself only if no rule is about it or it is
such a name. -/
theorem tokens_are_canonical :
    (∀ n : Normalizer, (∀ name ∈ n.names, n.operand? name = some name) →
      ∀ operand token, n.operand? operand = some token → n.operand? token = some token) ∧
    (∀ n : Normalizer, n.rules = Rules.default → ∀ name ∈ n.names, n.operand? name = some name) ∧
    (∀ n : Normalizer, n.operand? "" = none) ∧
    ∀ (n : Normalizer) (operand : String), operand ≠ "" → ∃ token,
      n.operand? operand = some token ∧
      (token ∈ Token.classes ∨ token ∈ Ordered.keys n.rules.synonyms ∨ token = operand) ∧
      (token = operand → ¬ Token.Caught n.rules.registers operand.toList ∨
        operand ∈ Token.classes ∨ operand ∈ Ordered.keys n.rules.synonyms) := by
  refine ⟨fun n settled operand token h => ?_, fun n hrules => ?_, fun n => rfl,
    fun n operand hfilled => ?_⟩
  · rcases n.operand?_cases h with rfl | hname
    · exact h
    · exact settled token hname
  · obtain ⟨rules, dialect⟩ := n
    obtain rfl := hrules
    have hdefault : ∀ name ∈ (⟨Rules.default, Dialect.default⟩ : Normalizer).names,
        (⟨Rules.default, Dialect.default⟩ : Normalizer).operand? name = some name := by
      decide +kernel
    exact hdefault
  · refine ⟨_, n.operand?_eq hfilled, ?_, fun hsame => ?_⟩
    · rcases n.operand?_cases (n.operand?_eq hfilled) with hsame | hname
      · exact .inr (.inr hsame)
      · exact (List.mem_append.mp hname).imp_right .inl
    · by_cases caught : Token.Caught n.rules.registers operand.toList
      · have hname := n.operand?_caught (n.operand?_eq hfilled) caught
        rw [hsame] at hname
        exact .inr (List.mem_append.mp hname)
      · exact .inl caught

/-- A compare under the default rules, a register that is told by its first two letters, and an
operand that no rule is about. -/
theorem three_operands_of_the_default_rules :
    let n : Normalizer := ⟨Rules.default, Dialect.default⟩
    (∀ name ∈ n.names, n.operand? name = some name) ∧
      n.operand? "testq" = some "cmp" ∧ n.operand? "cmp" = some "cmp" ∧
      n.operand? "ds:0x804a020" = some "REGSEG" ∧ n.operand? "REGSEG" = some "REGSEG" ∧
      n.operand? "hlt" = some "hlt" ∧ ¬ Token.Caught n.rules.registers "hlt".toList := by
  intro n
  obtain ⟨hkeep, hdefault, -, hcases⟩ := tokens_are_canonical
  have settled := hdefault n rfl
  have hcompare : n.operand? "testq" = some "cmp" := by decide
  have hregister : n.operand? "ds:0x804a020" = some "REGSEG" := by decide
  have hother : n.operand? "hlt" = some "hlt" := by decide
  have huncaught : ¬ Token.Caught n.rules.registers "hlt".toList := by
    obtain ⟨token, htoken, -, honly⟩ := hcases n "hlt" (by decide)
    have hsame : token = "hlt" := Option.some.inj (htoken.symm.trans hother)
    rcases honly hsame with hfree | hclass | hgroup
    · exact hfree
    · exact absurd hclass (by decide)
    · exact absurd hgroup (by decide)
  exact ⟨settled, hcompare, hkeep n settled _ _ hcompare, hregister,
    hkeep n settled _ _ hregister, hother, huncaught⟩

/-- Where a name is not left alone, a second pass goes on. -/
example :
    let n : Normalizer := ⟨⟨[("x", ["y"]), ("y", ["z"])], []⟩, Dialect.default⟩
    n.operand? "z" = some "y" ∧ n.operand? "y" = some "x" := by
  decide

end Lookalike
