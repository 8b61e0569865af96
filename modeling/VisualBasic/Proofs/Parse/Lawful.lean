import VisualBasic.Proofs.Parse.Source
import VisualBasic.Proofs.Syntax.Items

/-!
A text without diagnostics keeps the rules of the language for modifiers, parameters and arguments,
and for what can stand in a container and in which order.
-/

set_option autoImplicit false

namespace VisualBasic

-- The members of a type

/-- A list of members names base types, then interfaces, and nothing else names types. -/
structure NamesTypesFirst (members : List Declaration) (bases interfaces : List TypeList)
    (others : List Declaration) : Prop where
  split : members = bases.map .typeList ++ interfaces.map .typeList ++ others
  inherited : ∀ l ∈ bases, l.kind = .inheritsFrom
  implemented : ∀ l ∈ interfaces, l.kind = .implementsAll
  rest : ∀ l, .typeList l ∉ others

/-- The types that a type of the given kind can name. -/
def TypeKind.CanName (kind : TypeKind) (bases interfaces : List TypeList) : Prop :=
  match kind with
  | .classType => bases.length ≤ 1 ∧ ∀ l ∈ bases, l.types.items.length = 1
  | .structureType => bases = []
  | .interfaceType => interfaces = []
  | .moduleType => bases = [] ∧ interfaces = []

namespace NamesTypesFirst

variable {members others : List Declaration} {bases interfaces : List TypeList}

theorem base_mem (names : NamesTypesFirst members bases interfaces others) {l : TypeList}
    (member : l ∈ bases) : .typeList l ∈ members := by
  simp [names.split, member]

theorem interface_mem (names : NamesTypesFirst members bases interfaces others) {l : TypeList}
    (member : l ∈ interfaces) : .typeList l ∈ members := by
  simp [names.split, member]

theorem rank_base (names : NamesTypesFirst members bases interfaces others) {l : TypeList}
    (member : l ∈ bases) : (Node.declaration (.typeList l)).rank = 0 := by
  simp [Node.rank, names.inherited l member]

theorem rank_interface (names : NamesTypesFirst members bases interfaces others) {l : TypeList}
    (member : l ∈ interfaces) : (Node.declaration (.typeList l)).rank = 1 := by
  simp [Node.rank, names.implemented l member]

/-- Members that come in their turn are so split. -/
theorem ofSorted {ds : List Declaration}
    (sorted : ds.Pairwise fun a b => (Node.declaration a).rank ≤ (Node.declaration b).rank) :
    ∃ bases interfaces others, NamesTypesFirst ds bases interfaces others := by
  induction sorted with
  | nil => exact ⟨[], [], [], rfl, by simp, by simp, by simp⟩
  | @cons d rest behind _ ih =>
    obtain ⟨bases, interfaces, others, names⟩ := ih
    have noBases (late : 0 < (Node.declaration d).rank) : bases = [] := by
      refine List.eq_nil_iff_forall_not_mem.2 fun l member => ?_
      have := behind _ (names.base_mem member)
      have := names.rank_base member
      omega
    have noInterfaces (late : 1 < (Node.declaration d).rank) : interfaces = [] := by
      refine List.eq_nil_iff_forall_not_mem.2 fun l member => ?_
      have := behind _ (names.interface_mem member)
      have := names.rank_interface member
      omega
    have split := names.split
    by_cases isList : ∃ l, d = .typeList l
    · obtain ⟨l, rfl⟩ := isList
      cases kind : l.kind with
      | inheritsFrom =>
        exact ⟨l :: bases, interfaces, others, by simp [split],
          List.forall_mem_cons.2 ⟨kind, names.inherited⟩, names.implemented, names.rest⟩
      | implementsAll =>
        obtain rfl := noBases (by simp [Node.rank, kind])
        exact ⟨[], l :: interfaces, others, by simp [split], by simp,
          List.forall_mem_cons.2 ⟨kind, names.implemented⟩, names.rest⟩
    · have rank : (Node.declaration d).rank = 2 := by
        cases d with
        | typeList l => exact absurd ⟨l, rfl⟩ isList
        | _ => rfl
      obtain rfl := noBases (by omega)
      obtain rfl := noInterfaces (by omega)
      refine ⟨[], [], d :: others, by simp [split], by simp, by simp, fun l member => ?_⟩
      obtain rfl | member := List.mem_cons.1 member
      · exact isList ⟨l, rfl⟩
      · exact names.rest l member

/-- In a container that allows its members in their order, only types are named that can be. -/
theorem canName {kind : TypeKind} (names : NamesTypesFirst members bases interfaces others)
    (allowed : ∀ d ∈ members, d.isAllowedIn (.type kind) = true)
    (order : members.Pairwise fun a b =>
      (Node.declaration a).Precedes (.type kind) (.declaration b)) :
    kind.CanName bases interfaces := by
  have base (l : TypeList) (member : l ∈ bases) :
      TypeListKind.inheritsFrom.isAllowedIn (.type kind) = true ∧
        Declaration.namesOne (.type kind) l = true := by
    have allowed := allowed _ (names.base_mem member)
    rwa [Declaration.isAllowedIn, names.inherited l member, Bool.and_eq_true] at allowed
  have interface (l : TypeList) (member : l ∈ interfaces) :
      TypeListKind.implementsAll.isAllowedIn (.type kind) = true := by
    have allowed := allowed _ (names.interface_mem member)
    rw [Declaration.isAllowedIn, names.implemented l member, Bool.and_eq_true] at allowed
    exact allowed.1
  have noBases (barred : TypeListKind.inheritsFrom.isAllowedIn (.type kind) = false) : bases = [] :=
    List.eq_nil_iff_forall_not_mem.2 fun l member => by simp [barred] at base; exact base l member
  have noInterfaces (barred : TypeListKind.implementsAll.isAllowedIn (.type kind) = false) :
      interfaces = [] :=
    List.eq_nil_iff_forall_not_mem.2 fun l member => by
      simp [barred] at interface; exact interface l member
  cases kind with
  | classType =>
    refine ⟨?_, fun l member => ?_⟩
    · -- Of two base types the second one would be one too many.
      have apart : bases.Pairwise fun _ _ => False := by
        rw [names.split, List.append_assoc] at order
        refine (List.pairwise_map.1 (List.pairwise_append.1 order).1).imp_of_mem fun first second => ?_
        intro precedes
        exact precedes.2 rfl (names.rank_base first) (names.rank_base second)
      rcases bases with - | ⟨first, - | ⟨second, more⟩⟩
      · simp
      · simp
      · exact ((List.pairwise_cons.1 apart).1 second List.mem_cons_self).elim
    · simpa [Declaration.namesOne, names.inherited l member] using (base l member).2
  | structureType => exact noBases rfl
  | interfaceType => exact noInterfaces rfl
  | moduleType => exact ⟨noBases rfl, noInterfaces rfl⟩

end NamesTypesFirst

namespace Node

def modifierList? : Node → Option ModifierList
  | declaration d => d.modifiers?
  | statement (.localDeclaration d) => some d.modifiers
  | _ => none

/-- The node keeps the rules of the language. -/
structure KeepsRules (n : Node) : Prop where
  flags : ∀ l, n.modifierList? = some l →
    ∀ i, l.flags.testBit i = true ↔ ∃ m ∈ l.modifiers, m.value.bit = i
  locals : ∀ d, n = statement (.localDeclaration d) → d.modifiers.keeps Modifier.locals = true
  members : ∀ d, declaration d ∈ n.children → d.isAllowedIn n.container = true
  consistent : ∀ p, n = parameter p → p.isConsistent = true
  restIsLast : ∀ l, n.parameters? = some l → l.restIsLast = true
  namesAreLast : ∀ l, n.arguments? = some l → l.namesAreLast = true
  -- What the `Next` of a loop names belongs to the loop only in part.
  closing : ∀ v ∈ n.closingVariables, (expression v).Everywhere fun m =>
    ∀ l, m.arguments? = some l → l.namesAreLast = true
  heading : ∀ d, n = declaration (.type d) → ∃ bases interfaces others,
    NamesTypesFirst d.members.declarations bases interfaces others ∧
      d.kind.CanName bases interfaces

theorem namesAreLast_of_isProper {n : Node} (proper : n.isProper = true) (l : Arguments)
    (has : n.arguments? = some l) : l.namesAreLast = true := by
  simp only [isProper, isLawful, Bool.and_eq_true] at proper
  simpa [has] using proper.1.1.2

theorem Orderly.heading {tokens : List Token} {d : TypeDeclaration Declaration}
    (orderly : (declaration (.type d)).Orderly tokens) : ∃ bases interfaces others,
      NamesTypesFirst d.members.declarations bases interfaces others ∧
        d.kind.CanName bases interfaces := by
  have roster := orderly (ofDeclarations d.members) List.mem_cons_self
  have order := List.pairwise_map.1 roster.order
  have allowed (m : Declaration) (member : m ∈ d.members.declarations) :
      m.isAllowedIn (.type d.kind) = true :=
    roster.allowed (declaration m) (List.mem_map_of_mem member)
  obtain ⟨bases, interfaces, others, names⟩ := NamesTypesFirst.ofSorted (order.imp And.left)
  exact ⟨bases, interfaces, others, names, names.canName allowed order⟩

theorem KeepsRules.of {tokens : List Token} {n : Node} (proper : n.IsProper)
    (orderly : n.Orderly tokens) (direct : n.isDirect = true) : n.KeepsRules where
  flags l _ i := by simp [ModifierList.testBit_flags]
  locals d own := by
    subst own
    have own := proper.1
    simp only [isProper, isLawful, Bool.and_eq_true] at own
    exact own.1.1.1
  members d member := by
    obtain ⟨l, listed, found⟩ := listed_of_child direct member rfl
    exact (orderly l listed).allowed _ found
  consistent p own := by
    subst own
    have own := proper.1
    simp only [isProper, isLawful, Bool.and_eq_true] at own
    exact own.1.1.1
  restIsLast l has := by
    have own := proper.1
    simp only [isProper, isLawful, Bool.and_eq_true] at own
    simpa [has] using own.1.2
  namesAreLast := namesAreLast_of_isProper proper.1
  closing v member := (proper.2 v member).mono fun m proper => namesAreLast_of_isProper proper
  heading d own := by
    subst own
    exact orderly.heading

end Node

/-- Where there is no diagnostic, the rules of the language are kept all over the tree: modifiers go
with what they modify and with its container, specifiers of parameters go together, only a last
parameter takes all further arguments, named arguments stand behind all others, and a type names other
types only where it can, before its members. -/
theorem clean_text_keeps_rules (o : ScanOptions) (text : String) :
    ((parseFile o text).diagnostics = [] →
      (Node.file (parseFile o text).tree).Everywhere Node.KeepsRules) ∧
      ((parseScript o text).diagnostics = [] →
        (Node.script (parseScript o text).tree).Everywhere Node.KeepsRules) := by
  constructor
  next =>
    intro none n member
    have proper := (parseFile_accounts o text).1.proper none
    have orderly := parseFile_orderly o text none
    exact .of (proper n member) (orderly n member) (Node.everywhere_isDirect rfl n member)
  next =>
    intro none n member
    have proper := (parseScript_accounts o text).1.proper none
    have orderly := parseScript_orderly o text none
    exact .of (proper n member) (orderly n member) (Node.everywhere_isDirect rfl n member)

/-- A class with a base, and a method that is called with a named argument. -/
def derivedClass : String :=
  "Class C\n  Inherits B\n  Public Sub M(Optional ByVal n As Integer = 1)\n    M(n:=2)\n" ++
    "  End Sub\nEnd Class\n"

theorem derivedClass_keeps_rules :
    ((parseFile .standard derivedClass).diagnostics = [] ∧
        (parseScript .standard derivedClass).diagnostics = []) ∧
      (Node.file (parseFile .standard derivedClass).tree).Everywhere Node.KeepsRules ∧
      (Node.script (parseScript .standard derivedClass).tree).Everywhere Node.KeepsRules := by
  have cleanFile : (parseFile .standard derivedClass).diagnostics = [] := by decide +kernel
  have cleanScript : (parseScript .standard derivedClass).diagnostics = [] := by decide +kernel
  obtain ⟨ofFile, ofScript⟩ := clean_text_keeps_rules .standard derivedClass
  exact ⟨⟨cleanFile, cleanScript⟩, ofFile cleanFile, ofScript cleanScript⟩

end VisualBasic
