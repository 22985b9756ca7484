import Inlay.Literal
import Inlay.Proofs.Evaluation
import Inlay.Proofs.Keys
import Inlay.Proofs.Stops

/-!
# Literals mean the data they are written from

`Literal.embed` writes a JSON value as an expression, and evaluating the expression gives the value
back: in every object each key is written so that it becomes an own member, whatever it is called,
and every number is put together again from its magnitude and its sign.

* `eval_number`, `evalName_key`: numbers and keys by themselves.
* `eval_embed`: whole values, by induction over values, their items and their entries.
* `Node.WellWritten`: plain keys are identifier names, and number literals are finite and without
  sign; `wellWritten_embed`: every part of a literal is well written.
* `literal_means_its_value`: the two together.
-/

namespace Inlay

open Code Json

namespace Literal

variable (missing : String → Datum) (env : Bindings)

/-! ## Numbers -/

/-- The expression of a magnitude that stands alone. -/
def magnitude (d : Double) : Node := if d = Double.infinity then infinity else .number d

/-- The expression of a magnitude with a minus in front of it. -/
def operand (d : Double) : Node :=
  if d = Double.infinity then .node .parens [infinity] else .number d

/-- A number is written as its magnitude, and with a minus in front of it if it has one. -/
theorem number_eq (n : Numeral) :
    number n
      = if n.negative then .node (.unary "-") [operand n.toMagnitude]
        else magnitude n.toMagnitude := by
  rw [number, Double.isInfinite, n.magnitude_toDouble, n.isNegative_toDouble, magnitude, operand]
  by_cases h : n.toMagnitude = Double.infinity
  · simp only [h, beq_self_eq_true, if_true]
  · simp only [h, beq_iff_eq, if_false]

/-- The quotient `1 / 0` is infinity. -/
theorem eval_infinity : eval missing env infinity = some (.number .infinity) := by
  show some (Datum.number (Double.one.quotient Double.zero)) = _
  rw [Double.quotient_one_zero]

/-- A magnitude evaluates to itself. -/
theorem eval_magnitude (d : Double) : eval missing env (magnitude d) = some (.number d) := by
  rw [magnitude]
  by_cases h : d = Double.infinity
  · rw [if_pos h, eval_infinity, h]
  · rw [if_neg h]
    rfl

/-- A minus in front of a magnitude. -/
theorem eval_minus (d : Double) :
    eval missing env (.node (.unary "-") [operand d]) = some (.number d.opposite) := by
  have hoperand : eval missing env (operand d) = some (.number d) := by
    rw [operand]
    by_cases h : d = Double.infinity
    · rw [if_pos h, h]
      exact eval_infinity missing env
    · rw [if_neg h]
      rfl
  show (eval missing env (operand d)).bind (unaryOperation "-") = _
  rw [hoperand]
  rfl

/-- **A number evaluates to the double nearest to it.** -/
theorem eval_number (n : Numeral) :
    eval missing env (number n) = some (.number n.toDouble) := by
  rw [number_eq]
  cases h : n.negative with
  | false =>
      rw [if_neg Bool.false_ne_true, eval_magnitude, Numeral.toDouble_of_nonnegative h]
  | true => rw [if_pos rfl, eval_minus, Numeral.opposite_toMagnitude h]

/-! ## Keys -/

/-- **A key names an own member**, however it is written. -/
theorem evalName_key (k : String) :
    ∃ name, evalName missing env (key k) = some name ∧
      ∀ (m : Members) (d : Datum), m.add name d = { m with own := Members.put k d m.own } := by
  rw [key]
  by_cases hproto : k = "__proto__"
  · rw [if_pos hproto]
    exact ⟨.computed k, rfl, fun _ _ => rfl⟩
  · rw [if_neg hproto]
    have hadd : ∀ (m : Members) (d : Datum),
        m.add (.written k) d = { m with own := Members.put k d m.own } := by
      intro m d
      rw [Members.add, if_neg hproto]
    by_cases hname : Text.isName k = true
    · rw [if_pos hname]
      exact ⟨.written k, rfl, hadd⟩
    · rw [if_neg hname]
      exact ⟨.written k, rfl, hadd⟩

/-- The quoted key that is not computed would set the prototype. -/
example :
    eval missing env
        (.node .object [.node .property [.node (.textKey "__proto__") [], .node .null []]])
      = some (.object (some .null) []) := rfl

/-! ## Values -/

/-- An element that has a datum is no hole. -/
theorem evalElements_cons {n : Node} {d : Datum} (h : eval missing env n = some d)
    (rest : List Node) :
    evalElements missing env (n :: rest)
      = (evalElements missing env rest).map (some d :: ·) := by
  rw [evalElements]
  · rw [h]
    cases evalElements missing env rest <;> rfl
  · rintro rfl
    exact nomatch h

/-- A member of an object literal is added to those before it. -/
theorem evalMembers_cons {value : Node} {d : Datum} (h : eval missing env value = some d)
    (k : String) (rest : List Node) (m : Members) :
    evalMembers missing env (.node .property [key k, value] :: rest) m
      = evalMembers missing env rest { m with own := Members.put k d m.own } := by
  obtain ⟨name, hname, hadd⟩ := evalName_key missing env k
  rw [evalMembers, hname, h, ← hadd]
  rfl

mutual

/-- **A literal evaluates to its value.** -/
theorem eval_embed : ∀ v : Value, v.KeysDistinct → eval missing env (embed v) = some (.ofJson v)
  | .null, _ => rfl
  | .bool _, _ => rfl
  | .number n, _ => eval_number missing env n
  | .string _, _ => rfl
  | .array items, h => by
      show (evalElements missing env (embedItems items)).bind _ = _
      rw [evalElements_embedItems items h]
      rfl
  | .object entries, h => by
      show (evalMembers missing env (embedEntries entries) .empty).bind _ = _
      rw [evalMembers_embedEntries entries h.2 .empty h.1]
      rfl

/-- The elements of a list literal, with no hole among them. -/
theorem evalElements_embedItems :
    ∀ items : List Value, Value.ItemsKeysDistinct items →
      evalElements missing env (embedItems items) = some (Datum.ofItems items)
  | [], _ => rfl
  | v :: rest, h => by
      rw [embedItems, evalElements_cons missing env (eval_embed v h.1),
        evalElements_embedItems rest h.2]
      rfl

/-- The members of an object literal go behind those before them, if all keys are distinct. -/
theorem evalMembers_embedEntries :
    ∀ entries : List (String × Value), Value.EntriesKeysDistinct entries →
      ∀ m : Members, (m.own.map Prod.fst ++ Entries.keys entries).Nodup →
        evalMembers missing env (embedEntries entries) m
          = some { m with own := m.own ++ Datum.ofEntries entries }
  | [], _, m, _ => by
      rw [Datum.ofEntries, List.append_nil]
      rfl
  | (k, v) :: rest, h, m, hnodup => by
      -- the keys before and the keys to come are distinct together, so `k` is new and goes last
      have hnew : k ∉ m.own.map Prod.fst := by
        intro hmem
        exact (List.nodup_append.mp hnodup).2.2 k hmem k List.mem_cons_self rfl
      have hnext : ((m.own ++ [(k, Datum.ofJson v)]).map Prod.fst ++ Entries.keys rest).Nodup := by
        rw [List.map_append, List.append_assoc]
        exact hnodup
      rw [embedEntries, evalMembers_cons missing env (eval_embed v h.1),
        Members.put_of_not_mem _ hnew, evalMembers_embedEntries rest h.2 _ hnext, Datum.ofEntries,
        List.append_assoc]
      rfl

end

end Literal

/-! ## How the parts of a literal are written -/

namespace Code

/-- **The first character of an identifier name**: an ASCII letter, `$`, `_`, or beyond ASCII a
    character with the property `ID_Start`. -/
def IsIdentifierStart (c : Char) : Prop :=
  ('a' ≤ c ∧ c ≤ 'z') ∨ ('A' ≤ c ∧ c ≤ 'Z') ∨ c = '$' ∨ c = '_' ∨
    (0x80 ≤ c.toNat ∧ Text.isNameStart c = true)

/-- **A later character of an identifier name**: besides, an ASCII digit, and beyond ASCII a
    character with the property `ID_Continue` or a join control. -/
def IsIdentifierPart (c : Char) : Prop :=
  ('a' ≤ c ∧ c ≤ 'z') ∨ ('A' ≤ c ∧ c ≤ 'Z') ∨ ('0' ≤ c ∧ c ≤ '9') ∨ c = '$' ∨ c = '_' ∨
    (0x80 ≤ c.toNat ∧ (Text.isNameContinue c = true ∨ c.toNat = 0x200C ∨ c.toNat = 0x200D))

/-- **A valid identifier name.** -/
def IsIdentifierName (name : String) : Prop :=
  ∃ first rest, name.toList = first :: rest ∧ IsIdentifierStart first ∧
    ∀ c ∈ rest, IsIdentifierPart c

/-- **A node is well written**: a plain key is a valid identifier name, and a number literal holds a
    finite double without sign. -/
def Node.WellWritten : Node → Prop
  | node (.nameKey name) _ => IsIdentifierName name
  | node (.number d) _ => d.isFinite = true ∧ d.isNegative = false
  | _ => True

/-- A tree is well written if its root is and the trees below are. -/
theorem Node.wellWritten_of_children {form : Form} {children : List Node}
    (hroot : (node form children).WellWritten)
    (hchildren : ∀ c ∈ children, ∀ m, Within m c → m.WellWritten) :
    ∀ m, Within m (node form children) → m.WellWritten := by
  intro m h
  cases h with
  | self => exact hroot
  | child hc hm => exact hchildren _ hc m hm

/-- A node without children is well written if it is by itself. -/
theorem Node.wellWritten_of_leaf {form : Form} (hroot : (node form []).WellWritten) :
    ∀ m, Within m (node form []) → m.WellWritten :=
  wellWritten_of_children hroot (fun _ hc => nomatch hc)

/-- A node with one child. -/
theorem Node.wellWritten_of_child {form : Form} {c : Node} (hroot : (node form [c]).WellWritten)
    (hchild : ∀ m, Within m c → m.WellWritten) :
    ∀ m, Within m (node form [c]) → m.WellWritten := by
  refine wellWritten_of_children hroot (fun d hd => ?_)
  rw [List.mem_singleton.mp hd]
  exact hchild

/-- A node with two children. -/
theorem Node.wellWritten_of_two {form : Form} {c d : Node}
    (hroot : (node form [c, d]).WellWritten) (hc : ∀ m, Within m c → m.WellWritten)
    (hd : ∀ m, Within m d → m.WellWritten) :
    ∀ m, Within m (node form [c, d]) → m.WellWritten := by
  refine wellWritten_of_children hroot (fun e he => ?_)
  rcases List.mem_cons.mp he with rfl | hrest
  · exact hc
  · rw [List.mem_singleton.mp hrest]
    exact hd

end Code

namespace Literal

/-- A character that may start a name starts an identifier name. -/
theorem isIdentifierStart_of_startsName {c : Char} (h : Text.startsName c = true) :
    IsIdentifierStart c := by
  rw [Text.startsName] at h
  rw [IsIdentifierStart]
  by_cases hascii : c.toNat < 0x80
  · simp only [hascii, if_true, Text.isAsciiLetter, Bool.or_eq_true, Bool.and_eq_true,
      decide_eq_true_eq, beq_iff_eq] at h
    tauto
  · rw [if_neg hascii] at h
    exact Or.inr (Or.inr (Or.inr (Or.inr ⟨Nat.le_of_not_lt hascii, h⟩)))

/-- A character that may continue a name continues an identifier name. -/
theorem isIdentifierPart_of_continuesName {c : Char} (h : Text.continuesName c = true) :
    IsIdentifierPart c := by
  rw [Text.continuesName] at h
  rw [IsIdentifierPart]
  by_cases hascii : c.toNat < 0x80
  · simp only [hascii, if_true, Text.isAsciiLetter, Text.isAsciiDigit, Bool.or_eq_true,
      Bool.and_eq_true, decide_eq_true_eq, beq_iff_eq] at h
    tauto
  · simp only [hascii, if_false, Bool.or_eq_true, beq_iff_eq, or_assoc] at h
    exact Or.inr (Or.inr (Or.inr (Or.inr (Or.inr ⟨Nat.le_of_not_lt hascii, h⟩))))

/-- What is written plainly is a valid identifier name. -/
theorem isIdentifierName_of_isName {name : String} (h : Text.isName name = true) :
    IsIdentifierName name := by
  rw [Text.isName] at h
  cases hchars : name.toList with
  | nil =>
      rw [hchars] at h
      exact nomatch h
  | cons first rest =>
      rw [hchars, Bool.and_eq_true, List.all_eq_true] at h
      refine ⟨first, rest, hchars, isIdentifierStart_of_startsName h.1, ?_⟩
      intro c hc
      exact isIdentifierPart_of_continuesName (h.2 c hc)

/-- Keys are well written. -/
theorem wellWritten_key (k : String) : ∀ m, Node.Within m (key k) → m.WellWritten := by
  rw [key]
  split
  · exact Node.wellWritten_of_child trivial (Node.wellWritten_of_leaf trivial)
  · split
    · exact Node.wellWritten_of_leaf (isIdentifierName_of_isName ‹_›)
    · exact Node.wellWritten_of_leaf trivial

/-- The quotient `1 / 0` is well written. -/
theorem wellWritten_infinity : ∀ m, Node.Within m infinity → m.WellWritten :=
  Node.wellWritten_of_two trivial (Node.wellWritten_of_leaf ⟨rfl, rfl⟩)
    (Node.wellWritten_of_leaf ⟨rfl, rfl⟩)

/-- A magnitude that is not infinite is a well-written literal. -/
theorem wellWritten_magnitude {d : Double} (h : d.IsMagnitude) (hne : d ≠ Double.infinity) :
    ∀ m, Node.Within m (.number d) → m.WellWritten :=
  Node.wellWritten_of_leaf ⟨h.isFinite hne, h.isNegative⟩

/-- Numbers are well written. -/
theorem wellWritten_number (n : Numeral) :
    ∀ m, Node.Within m (number n) → m.WellWritten := by
  have hmagnitude := n.isMagnitude_toMagnitude
  rw [number_eq, operand, magnitude]
  split
  · refine Node.wellWritten_of_child trivial ?_
    split
    · exact Node.wellWritten_of_child trivial wellWritten_infinity
    · exact wellWritten_magnitude hmagnitude ‹_›
  · split
    · exact wellWritten_infinity
    · exact wellWritten_magnitude hmagnitude ‹_›

mutual

/-- **Every part of a literal is well written.** -/
theorem wellWritten_embed : ∀ v : Value, ∀ m, Node.Within m (embed v) → m.WellWritten
  | .null => Node.wellWritten_of_leaf trivial
  | .bool _ => Node.wellWritten_of_leaf trivial
  | .number n => wellWritten_number n
  | .string _ => Node.wellWritten_of_leaf trivial
  | .array items => Node.wellWritten_of_children trivial (wellWritten_embedItems items)
  | .object entries => Node.wellWritten_of_children trivial (wellWritten_embedEntries entries)

theorem wellWritten_embedItems :
    ∀ items : List Value, ∀ c ∈ embedItems items, ∀ m, Node.Within m c → m.WellWritten
  | [], _, hc => nomatch hc
  | v :: rest, c, hc => by
      rcases List.mem_cons.mp hc with rfl | hrest
      · exact wellWritten_embed v
      · exact wellWritten_embedItems rest c hrest

theorem wellWritten_embedEntries :
    ∀ entries : List (String × Value), ∀ c ∈ embedEntries entries,
      ∀ m, Node.Within m c → m.WellWritten
  | [], _, hc => nomatch hc
  | (k, v) :: rest, c, hc => by
      rcases List.mem_cons.mp hc with rfl | hrest
      · exact Node.wellWritten_of_two trivial (wellWritten_key k) (wellWritten_embed v)
      · exact wellWritten_embedEntries rest c hrest

end

/-- **A literal means its value, and is written as code can be.** Evaluated anywhere, it gives the
    value back, with every key an own member. Every plain key in it is a valid identifier name, and
    every number literal in it is finite and without sign. -/
theorem literal_means_its_value (missing : String → Datum) (env : Bindings) (v : Value)
    (h : v.KeysDistinct) :
    eval missing env (embed v) = some (.ofJson v) ∧
    (∀ name children, Node.Within (.node (.nameKey name) children) (embed v) →
      IsIdentifierName name) ∧
    (∀ d children, Node.Within (.node (.number d) children) (embed v) →
      d.isFinite = true ∧ d.isNegative = false) := by
  refine ⟨eval_embed missing env v h, ?_, ?_⟩
  · intro name children hwithin
    exact wellWritten_embed v _ hwithin
  · intro d children hwithin
    exact wellWritten_embed v _ hwithin

/-- An object with a key `__proto__`, which stays an own member. -/
theorem literal_means_its_value_proto :
    (Value.object [("__proto__", .object [("a b", .null)]), ("x", .bool true)]).KeysDistinct ∧
    eval (fun _ => .undefined) []
        (embed (.object [("__proto__", .object [("a b", .null)]), ("x", .bool true)]))
      = some (.object none
          [("__proto__", .object none [("a b", .null)]), ("x", .boolean true)]) := by
  have hkeys : (Value.object
      [("__proto__", .object [("a b", .null)]), ("x", .bool true)]).KeysDistinct := by
    exact ⟨by decide, ⟨by decide, trivial, trivial⟩, trivial, trivial⟩
  exact ⟨hkeys, (literal_means_its_value (fun _ => .undefined) [] _ hkeys).1⟩

end Literal

end Inlay
