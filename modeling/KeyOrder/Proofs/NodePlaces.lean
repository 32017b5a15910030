import KeyOrder.Proofs.Reading
import KeyOrder.Proofs.Walk

/-!
# Where the keys of a tree stand

Two facts about nodes are all that is asked of a tree.  In a pair of a dict display the key ends no
later than the value; and an argument with a keyword starts with an identifier that the equals sign
follows, of which the keyword is the compatibility form.  A parser is followed by what it says of
its lexemes: an expression runs from the start of one to the end of one.

Nothing is asked of the nodes in a formatted string.  The places of those may be displaced.
-/

namespace KeyOrder

open Text (Spacing)
open KeyOrder.Parser (startAt stopAt Gives Leads Widens)

/-! ### Lexemes in their order -/

namespace Lexeme.Fits

variable {text : Text} {ls : Array Lexeme} (h : Fits text ls) {a b : Nat}

include h

lemma one_le_line (ha : a < ls.size) : 1 ≤ (startAt ls a).line := by
  have hl := Array.getElem?_eq_getElem ha
  simp only [startAt, hl, Option.map_some, Option.getD_some]
  exact (h.placed hl).1

/-- The end of a lexeme is no later than the end of the next one. -/
lemma stop_le_succ (ha : 0 < a) (hb : a < ls.size) :
    (stopAt ls a).le (stopAt ls (a + 1)) = true := by
  obtain ⟨a, rfl⟩ := Nat.exists_eq_add_of_le' ha
  have hl := Array.getElem?_eq_getElem (Nat.lt_of_succ_lt hb)
  have hm := Array.getElem?_eq_getElem hb
  simp only [stopAt, Nat.add_sub_cancel, hl, hm, Option.map_some, Option.getD_some]
  exact Place.le_trans (h.ordered hl hm) (h.placed hm).2

lemma stop_le_stop (ha : 0 < a) (hab : a ≤ b) (hb : b ≤ ls.size) :
    (stopAt ls a).le (stopAt ls b) = true := by
  induction b, hab using Nat.le_induction with
  | base => exact Place.le_refl _
  | succ b hab ih =>
    exact Place.le_trans (ih (Nat.le_of_succ_le hb)) (h.stop_le_succ (by omega) hb)

lemma start_le_stop (hab : a < b) (hb : b ≤ ls.size) :
    (startAt ls a).le (stopAt ls b) = true := by
  have hl := Array.getElem?_eq_getElem (Nat.lt_of_lt_of_le hab hb)
  refine Place.le_trans ?_ (h.stop_le_stop (Nat.succ_pos a) hab hb)
  simp only [startAt, stopAt, Nat.succ_eq_add_one, Nat.add_sub_cancel, hl, Option.map_some,
    Option.getD_some]
  exact (h.placed hl).2

end Lexeme.Fits

/-! ### Nodes -/

/-- A keyword that is written at the start of a span: its name is the compatibility form of the
word there, and only spacing stands between the word and the equals sign. -/
def Text.Names (text : Text) (span : Span) (name : CodePoints) : Prop :=
  ∃ word gap, name = Unicode.compatibilityForm (word.map Char.toNat) ∧ word ≠ [] ∧
    (∀ c ∈ word, Lexeme.isIdentifierChar c = true) ∧ Spacing gap ∧
    text.Stands ⟨1, 0⟩ span.start (word ++ gap ++ ['=']) ∧
    (word.foldl Cursor.after span.start).le span.stop = true

/-- Whether nothing is asked of nodes of a kind: they are neither displays nor arguments with a
keyword. -/
def NodeKind.isFree : NodeKind → Bool
  | .display | .keyword (some _) => false
  | .name _ | .constant _ | .template | .call | .mapping | .pair | .spread | .keyword none
  | .starred | .attribute | .subscript | .tuple | .list | .group => true

namespace Node

/-- If a node has a key and a value, the key ends no later than the value. -/
def Ordered (item : Node) : Prop :=
  ∀ k v, item.children = [k, v] → 1 ≤ k.span.start.line ∧ k.span.start.le k.span.stop = true ∧
    k.span.stop.le v.span.stop = true

/-- The keys of a dict display or of an argument stand where they should. -/
structure KeysPlaced (text : Text) (n : Node) : Prop where
  display : n.kind = .display → ∀ item ∈ n.children, item.Ordered
  keyword {name : CodePoints} : n.kind = .keyword (some name) → text.Names n.span name

/-- The keys of all nodes of a tree stand where they should, but for those in formatted
strings. -/
inductive AllPlaced (text : Text) : Node → Prop where
  | template {s : Span} {cs : List Node} : AllPlaced text (.mk .template s cs)
  | node {k : NodeKind} {s : Span} {cs : List Node} : KeysPlaced text (.mk k s cs) →
    (∀ c ∈ cs, AllPlaced text c) → AllPlaced text (.mk k s cs)

variable {text : Text} {k : NodeKind} {s : Span} {cs : List Node}

lemma AllPlaced.keysPlaced {n : Node} (h : n.AllPlaced text) (hn : n.kind ≠ .template) :
    n.KeysPlaced text := by
  cases h with
  | template => exact absurd rfl hn
  | node hkeys _ => exact hkeys

lemma AllPlaced.of_mem_children {n c : Node} (h : n.AllPlaced text) (hn : n.kind ≠ .template)
    (hc : c ∈ n.children) : c.AllPlaced text := by
  cases h with
  | template => exact absurd rfl hn
  | node _ hcs => exact hcs c hc

lemma allPlaced_of_isFree (hk : k.isFree = true) (hcs : ∀ c ∈ cs, c.AllPlaced text) :
    AllPlaced text (.mk k s cs) := by
  refine .node ⟨?_, ?_⟩ hcs
  · rintro rfl
    cases hk
  · rintro name rfl
    cases hk

lemma allPlaced_bundle (hcs : ∀ c ∈ cs, c.AllPlaced text) : AllPlaced text (bundle cs) :=
  allPlaced_of_isFree rfl hcs

end Node

/-! ### What the grammar reads -/

namespace Node

/-- An expression that is read from one index to another: it runs from the start of one of the
lexemes there to the end of one. -/
def Spans (text : Text) (ls : Array Lexeme) (i : Nat) (n : Node) (j : Nat) : Prop :=
  n.AllPlaced text ∧ ∃ a b, i ≤ a ∧ a < b ∧ b ≤ j ∧ n.span = ⟨startAt ls a, stopAt ls b⟩

/-- A node of which nothing but the places of its keys is said. -/
def Placed (text : Text) (_ : Nat) (n : Node) (_ : Nat) : Prop := n.AllPlaced text

/-- Nodes of which nothing but the places of their keys is said. -/
def ListPlaced (text : Text) (_ : Nat) (ns : List Node) (_ : Nat) : Prop :=
  ∀ n ∈ ns, n.AllPlaced text

variable {text : Text} {ls : Array Lexeme} {i i' j j' k : Nat} {n : Node} {kind : NodeKind}
  {s : Place} {cs : List Node}

lemma Spans.allPlaced (h : Spans text ls i n j) : n.AllPlaced text := h.1

lemma Spans.lt (h : Spans text ls i n j) : i < j := by
  obtain ⟨-, a, b, hia, hab, hbj, -⟩ := h
  omega

lemma Spans.widen (hi : i' ≤ i) (hj : j ≤ j') (h : Spans text ls i n j) :
    Spans text ls i' n j' := by
  obtain ⟨hn, a, b, hia, hab, hbj, hspan⟩ := h
  exact ⟨hn, a, b, Nat.le_trans hi hia, hab, Nat.le_trans hbj hj, hspan⟩

lemma widens_spans : Widens (Spans text ls) := fun _ _ _ _ _ => Spans.widen

lemma widens_placed : Widens (Placed text) := fun _ _ _ _ _ _ _ h => h

lemma widens_listPlaced : Widens (ListPlaced text) := fun _ _ _ _ _ _ _ h => h

lemma forall_mem_pair {P : Node → Prop} {m : Node} (hn : P n) (hm : P m) :
    ∀ c ∈ [n, m], P c :=
  List.forall_mem_cons.2 ⟨hn, List.forall_mem_singleton.2 hm⟩

/-- A node from the start of one lexeme to the end of another. -/
lemma spans_mk {a b : Nat} (hk : kind.isFree = true) (ha : i ≤ a) (hab : a < b) (hb : b ≤ j)
    (hcs : ∀ c ∈ cs, c.AllPlaced text) :
    Spans text ls i (.mk kind ⟨startAt ls a, stopAt ls b⟩ cs) j :=
  ⟨allPlaced_of_isFree hk hcs, a, b, ha, hab, hb, rfl⟩

/-- A rule ends with a node over all that it has read. -/
lemma leads_spans (hk : kind.isFree = true) (hik : i < k) (hcs : ∀ c ∈ cs, c.AllPlaced text) :
    Leads ls (Spans text ls) i k (Parser.nodeFrom (startAt ls i) kind cs) :=
  Parser.leads_nodeFrom (spans_mk hk (Nat.le_refl i) hik (Nat.le_refl k) hcs)

/-- A rule ends with a node of which nothing more is said. -/
lemma leads_placed (hk : kind.isFree = true) (hcs : ∀ c ∈ cs, c.AllPlaced text) :
    Leads ls (Placed text) i k (Parser.nodeFrom s kind cs) :=
  Parser.leads_nodeFrom (allPlaced_of_isFree hk hcs)

/-- Nodes with commas between them. -/
lemma placed_commaList {p : Parser Node} (hp : Gives ls (Placed text) p) :
    Gives ls (fun _ ns _ => ∀ n ∈ ns.1, n.AllPlaced text) (Parser.commaList p) :=
  (Parser.gives_commaList widens_placed hp).mono fun _ _ _ h => h.2

/-- Nodes one after the other. -/
lemma placed_many1 {p : Parser Node} (hp : Gives ls (Placed text) p) :
    Gives ls (ListPlaced text) (Parser.many1 p) :=
  (Parser.gives_many1 widens_placed hp).mono fun _ _ _ h => h.2

section

variable {p : Parser Node} (hp : Gives ls (Spans text ls) p)

include hp

lemma placed_of_spans : Gives ls (Placed text) p := hp.mono fun _ _ _ => And.left

/-- Expressions with commas between them. -/
lemma gives_commaList :
    Gives ls (fun i ns j => i < j ∧ ∀ n ∈ ns.1, Spans text ls i n j) (Parser.commaList p) := by
  refine (Parser.gives_commaList widens_spans hp).mono ?_
  rintro i ns j ⟨hne, hns⟩
  obtain ⟨n, hn⟩ := List.exists_mem_of_ne_nil _ hne
  exact ⟨(hns n hn).lt, hns⟩

/-- Expressions after a word each. -/
lemma gives_many_after (s : String) :
    Gives ls (ListPlaced text) (Parser.many do Parser.word s; p) :=
  (Parser.gives_many widens_spans (Parser.gives_after s widens_spans hp)).mono
    fun _ _ _ h n hn => (h n hn).allPlaced

end

end Node

/-- The rules that other rules refer to read what they should, from lexemes of a text. -/
structure Rules.Sound (text : Text) (ls : Array Lexeme) (r : Rules) : Prop where
  fits : Lexeme.Fits text ls
  expression : Gives ls (Node.Spans text ls) r.expression
  disjunction : Gives ls (Node.Spans text ls) r.disjunction
  operand : Gives ls (Node.Spans text ls) r.operand
  inversion : Gives ls (Node.Spans text ls) r.inversion
  factor : Gives ls (Node.Spans text ls) r.factor
  primary : Gives ls (Node.Spans text ls) r.primary
  pattern : Gives ls (Node.Placed text) r.pattern
  block : Gives ls (Node.ListPlaced text) r.block

end KeyOrder
