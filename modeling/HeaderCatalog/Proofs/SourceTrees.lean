import HeaderCatalog.Entity
import HeaderCatalog.Text.Utf8
import Mathlib.Data.List.Basic
import Mathlib.Tactic.MkIffOfInductiveProp

/-!
# HeaderCatalog.Proofs.SourceTrees — trees that belong to a source

A tree belongs to a source if every node spells the bytes it spans, and the children of every
node lie in source order inside its span (`Node.OfSource`). Trees of a parser are such trees. The
property can be decided, so concrete trees are checked by evaluation. The catalogues of
`namesakes` and `mixin` show what the order and the place of headers do not promise.
-/

namespace HeaderCatalog

/-- The text between two byte offsets of a source. -/
def Text.spelled (source : Text) (start stop : Nat) : Except Fault Text :=
  match Utf8.decode (((Utf8.encode source).take stop).drop start) with
  | .ok text => .ok text
  | .error _ => .error .brokenText

theorem Item.ofOption_eq_node {c : Option Node} {n : Node} (h : Item.ofOption c = .node n) :
    c = some n := by
  cases c with
  | none => cases h
  | some m =>
    cases h
    rfl

namespace Node

/-- A node and all nodes under it, parents before children. -/
def subtree (n : Node) : List Node :=
  n :: n.children.attach.flatMap fun c => subtree c.1
termination_by sizeOf n
decreasing_by exact sizeOf_lt_of_mem_children c.2

/-- The nodes of a tree, its children taken without the proofs that they are smaller. -/
theorem subtree_eq (n : Node) : n.subtree = n :: n.children.flatMap subtree := by
  rw [subtree, List.flatMap_subtype (g := subtree) fun c hc => rfl, List.unattach_attach]

theorem mem_subtree_self (n : Node) : n ∈ n.subtree := by
  rw [subtree]
  exact List.mem_cons_self

/-- The children of the nodes of a tree are nodes of it. -/
theorem mem_subtree_of_mem_children {root n c : Node} (hn : n ∈ root.subtree)
    (hc : c ∈ n.children) : c ∈ root.subtree := by
  induction root using Node.subtree.induct with
  | case1 root ih =>
    rw [subtree] at hn ⊢
    refine List.mem_cons_of_mem _ (List.mem_flatMap.2 ?_)
    rcases List.mem_cons.1 hn with rfl | hn
    · exact ⟨⟨c, hc⟩, List.mem_attach _ _, c.mem_subtree_self⟩
    · rcases List.mem_flatMap.1 hn with ⟨d, hd, hnd⟩
      exact ⟨d, hd, ih d hnd⟩

/-- The node spells what it spans, and its children lie in source order inside its span. -/
@[mk_iff]
structure Conforms (n : Node) (source : Text) : Prop where
  start_le : n.start ≤ n.stop
  text : n.text = source.spelled n.start n.stop
  inside : ∀ c ∈ n.children, n.start ≤ c.start ∧ c.stop ≤ n.stop
  ordered : n.children.Pairwise fun a b => a.stop ≤ b.start

instance (n : Node) (source : Text) : Decidable (n.Conforms source) :=
  decidable_of_iff _ (n.conforms_iff source).symm

/-- Every node of the tree belongs to the source. -/
def OfSource (root : Node) (source : Text) : Prop :=
  ∀ n ∈ root.subtree, n.Conforms source

instance (root : Node) (source : Text) : Decidable (root.OfSource source) :=
  inferInstanceAs (Decidable (∀ n ∈ root.subtree, n.Conforms source))

/-! ## Sample trees -/

/-- A named node over bytes of a source. -/
def spanning (source : Text) (kind : String) (start stop : Nat) (children : List Node) : Node where
  kind := kind
  start := start
  stop := stop
  named := true
  field := none
  isError := false
  isMissing := false
  hasError := false
  point := ⟨0, start⟩
  text := source.spelled start stop
  children := children

/-- A keyword or a punctuation mark over bytes of a source. -/
def mark (source : Text) (kind : String) (start stop : Nat) : Node :=
  { spanning source kind start stop [] with named := false }

/-- The node as the filling of a field. -/
def fills (n : Node) (field : String) : Node :=
  { n with field := some field }

end Node

/-- An empty pair of marks, such as a parameter list or a block without contents. -/
def emptyPair (source : Text) (kind opened closed : String) (start : Nat) : Node :=
  .spanning source kind start (start + 2)
    [.mark source opened start (start + 1), .mark source closed (start + 1) (start + 2)]

/-- A function with a name of one character, no parameters and an empty body; comments may stand
before the name. -/
def plainFunction (source : Text) (start : Nat) (comments : List Node) (name : Nat) : Node :=
  .spanning source "function_declaration" start (name + 6)
    (.mark source "function" start (start + 8) :: comments ++
      [(Node.spanning source "identifier" name (name + 1) []).fills "name",
        (emptyPair source "formal_parameters" "(" ")" (name + 1)).fills "parameters",
        (emptyPair source "statement_block" "\x7b" "\x7d" (name + 4)).fills "body"])

/-- Two functions of one name. -/
def repeated : Text := "function a() \x7b\x7dfunction a() \x7b\x7d".toList

/-- The tree of `repeated`. -/
def repeatedTree : Node :=
  .spanning repeated "program" 0 30 [plainFunction repeated 0 [] 9, plainFunction repeated 15 [] 24]

/-- Two functions of one name; a comment stands in the header of the second. -/
def namesakes : Text := "function a() \x7b\x7dfunction /**/a() \x7b\x7d".toList

/-- The functions of `namesakes`. -/
def namesakesFunctions : List Node :=
  [plainFunction namesakes 0 [] 9,
    plainFunction namesakes 15 [.spanning namesakes "comment" 24 28 []] 28]

/-- The tree of `namesakes`. -/
def namesakesTree : Node := .spanning namesakes "program" 0 34 namesakesFunctions

/-- The declarations of `namesakes`. -/
def namesakesEntities : List Entity :=
  namesakesFunctions.map (⟨.function, ·, none, none⟩)

/-- A declaration that is exported. -/
def exportOf (source : Text) (start : Nat) (declaration : Node) : Node :=
  .spanning source "export_statement" start declaration.stop
    [.mark source "export" start (start + 6), declaration.fills "declaration"]

/-- An exported function and another one behind it. -/
def exporting : Text := "export function b() \x7b\x7dfunction a() \x7b\x7d".toList

/-- The tree of `exporting`. -/
def exportingTree : Node :=
  .spanning exporting "program" 0 37
    [exportOf exporting 0 (plainFunction exporting 7 [] 16), plainFunction exporting 22 [] 31]

/-- An exported function with a function in it, and a function of that name behind it. -/
def shadowing : Text :=
  "export function b() \x7bfunction a() \x7b\x7d\x7dfunction a() \x7b\x7d".toList

/-- The exported function of `shadowing`. -/
def shadowingOuter : Node :=
  .spanning shadowing "function_declaration" 7 37
    [.mark shadowing "function" 7 15,
      (Node.spanning shadowing "identifier" 16 17 []).fills "name",
      (emptyPair shadowing "formal_parameters" "(" ")" 17).fills "parameters",
      (Node.spanning shadowing "statement_block" 20 37
        [.mark shadowing "\x7b" 20 21, plainFunction shadowing 21 [] 30,
          .mark shadowing "\x7d" 36 37]).fills "body"]

/-- The tree of `shadowing`. -/
def shadowingTree : Node :=
  .spanning shadowing "program" 0 52
    [exportOf shadowing 0 shadowingOuter, plainFunction shadowing 37 [] 46]

/-- Two functions; the parameter of the first has a default. -/
def defaulted : Text := "function f(x = 1) \x7b\x7dfunction g() \x7b\x7d".toList

/-- The tree of `defaulted`. -/
def defaultedTree : Node :=
  .spanning defaulted "program" 0 35
    [.spanning defaulted "function_declaration" 0 20
      [.mark defaulted "function" 0 8,
        (Node.spanning defaulted "identifier" 9 10 []).fills "name",
        (Node.spanning defaulted "formal_parameters" 10 17
          [.mark defaulted "(" 10 11,
            .spanning defaulted "assignment_pattern" 11 16
              [(Node.spanning defaulted "identifier" 11 12 []).fills "left",
                .mark defaulted "=" 13 14,
                (Node.spanning defaulted "number" 15 16 []).fills "right"],
            .mark defaulted ")" 16 17]).fills "parameters",
        (emptyPair defaulted "statement_block" "\x7b" "\x7d" 18).fills "body"],
      plainFunction defaulted 20 [] 29]

/-- A function behind a tab. Tabs and a line break stand in its header, and a comma behind its
parameter. -/
def tabbed : Text := "\tfunction\tf(x ,\t)\n\x7b\x7d".toList

/-- The function of `tabbed`. -/
def tabbedFunction : Node :=
  .spanning tabbed "function_declaration" 1 20
    [.mark tabbed "function" 1 9,
      (Node.spanning tabbed "identifier" 10 11 []).fills "name",
      (Node.spanning tabbed "formal_parameters" 11 17
        [.mark tabbed "(" 11 12, .spanning tabbed "identifier" 12 13 [], .mark tabbed "," 14 15,
          .mark tabbed ")" 16 17]).fills "parameters",
      (emptyPair tabbed "statement_block" "\x7b" "\x7d" 18).fills "body"]

/-- A class that extends a call of `B`, with one method of the given name. -/
def mixin (method : Char) : Text :=
  "class A extends B() \x7b ".toList ++ method :: "() \x7b\x7d \x7d".toList

/-- The method of `mixin`. -/
def mixinMethod (method : Char) : Node :=
  (Node.spanning (mixin method) "method_definition" 22 28
    [(Node.spanning (mixin method) "property_identifier" 22 23 []).fills "name",
      (emptyPair (mixin method) "formal_parameters" "(" ")" 23).fills "parameters",
      (emptyPair (mixin method) "statement_block" "\x7b" "\x7d" 26).fills "body"]).fills "member"

/-- The class of `mixin`. -/
def mixinClass (method : Char) : Node :=
  .spanning (mixin method) "class_declaration" 0 30
    [.mark (mixin method) "class" 0 5,
      (Node.spanning (mixin method) "identifier" 6 7 []).fills "name",
      .spanning (mixin method) "class_heritage" 8 19
        [.mark (mixin method) "extends" 8 15,
          .spanning (mixin method) "call_expression" 16 19
            [(Node.spanning (mixin method) "identifier" 16 17 []).fills "function",
              (emptyPair (mixin method) "arguments" "(" ")" 17).fills "arguments"]],
      (Node.spanning (mixin method) "class_body" 20 30
        [.mark (mixin method) "\x7b" 20 21, mixinMethod method,
          .mark (mixin method) "\x7d" 29 30]).fills "body"]

/-- The tree of `mixin`. -/
def mixinTree (method : Char) : Node := .spanning (mixin method) "program" 0 30 [mixinClass method]

/-- The declarations of `mixin`. -/
def mixinEntities (method : Char) : List Entity :=
  [⟨.classDecl, mixinClass method, none, none⟩, ⟨.method, mixinMethod method, some ['A'], none⟩]

/-- A class with a decorator and two methods that is exported, a function with a comma behind its
last parameter, and a variable whose value is an arrow function with a bare parameter. -/
def assorted : Text :=
  ("@d export class A \x7b f() \x7b\x7d g() \x7b\x7d \x7d" ++
    "function a(p, q,) \x7b\x7dconst v = x => 1").toList

/-- A method of `assorted`. -/
def assortedMethod (start : Nat) : Node :=
  .spanning assorted "method_definition" start (start + 6)
    [(Node.spanning assorted "property_identifier" start (start + 1) []).fills "name",
      (emptyPair assorted "formal_parameters" "(" ")" (start + 1)).fills "parameters",
      (emptyPair assorted "statement_block" "\x7b" "\x7d" (start + 4)).fills "body"]

/-- The exported class of `assorted`. -/
def assortedClass : Node :=
  .spanning assorted "class_declaration" 10 35
    [.mark assorted "class" 10 15,
      (Node.spanning assorted "identifier" 16 17 []).fills "name",
      (Node.spanning assorted "class_body" 18 35
        [.mark assorted "\x7b" 18 19, assortedMethod 20, assortedMethod 27,
          .mark assorted "\x7d" 34 35]).fills "body"]

/-- The function of `assorted`. -/
def assortedFunction : Node :=
  .spanning assorted "function_declaration" 35 55
    [.mark assorted "function" 35 43,
      (Node.spanning assorted "identifier" 44 45 []).fills "name",
      (Node.spanning assorted "formal_parameters" 45 52
        [.mark assorted "(" 45 46, .spanning assorted "identifier" 46 47 [],
          .mark assorted "," 47 48, .spanning assorted "identifier" 49 50 [],
          .mark assorted "," 50 51, .mark assorted ")" 51 52]).fills "parameters",
      (emptyPair assorted "statement_block" "\x7b" "\x7d" 53).fills "body"]

/-- The variable of `assorted`. -/
def assortedVariable : Node :=
  .spanning assorted "variable_declarator" 61 71
    [(Node.spanning assorted "identifier" 61 62 []).fills "name",
      .mark assorted "=" 63 64,
      (Node.spanning assorted "arrow_function" 65 71
        [(Node.spanning assorted "identifier" 65 66 []).fills "parameter",
          .mark assorted "=>" 67 69,
          (Node.spanning assorted "number" 70 71 []).fills "body"]).fills "value"]

/-- The tree of `assorted`. -/
def assortedTree : Node :=
  .spanning assorted "program" 0 71
    [.spanning assorted "export_statement" 0 35
      [(Node.spanning assorted "decorator" 0 2
        [.mark assorted "@" 0 1, .spanning assorted "identifier" 1 2 []]).fills "decorator",
        .mark assorted "export" 3 9, assortedClass.fills "declaration"],
      assortedFunction,
      .spanning assorted "lexical_declaration" 55 71
        [(Node.mark assorted "const" 55 60).fills "kind", assortedVariable]]

end HeaderCatalog
