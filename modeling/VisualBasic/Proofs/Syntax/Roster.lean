import VisualBasic.Proofs.Syntax.Rules
import VisualBasic.Proofs.Syntax.Separation

/-!
The lists in a tree: what is listed is set apart, can stand where it stands, and comes in its turn.
-/

set_option autoImplicit false

namespace VisualBasic.Node

/-- The nodes can be listed in the container. -/
structure Roster (tokens : List Token) (container : Container) (ns : List Node) : Prop where
  apart : ns.IsChain (Apart tokens)
  allowed : ∀ n ∈ ns, n.isAllowedIn container = true
  order : ns.Pairwise (Precedes container)

/-- What the node lists keeps the rules for lists. -/
def Orderly (tokens : List Token) (n : Node) : Prop :=
  ∀ l ∈ n.lists, Roster tokens n.container l

variable {tokens others : List Token} {container : Container} {n : Node} {ns : List Node}

theorem Roster.nil : Roster tokens container [] := ⟨.nil, by simp, .nil⟩

theorem Roster.mono (roster : Roster tokens container ns) (more : tokens ⊆ others) :
    Roster others container ns :=
  { roster with apart := isChain_apart_mono roster.apart more }

theorem Orderly.mono (orderly : n.Orderly tokens) (more : tokens ⊆ others) : n.Orderly others :=
  fun l member => (orderly l member).mono more

theorem Orderly.tidy (orderly : n.Orderly tokens) : n.Tidy tokens :=
  fun l member => (orderly l member).apart

theorem orderly_of_lists {lists : List (List Node)} (own : n.lists = lists)
    (each : ∀ l ∈ lists, Roster tokens n.container l) : n.Orderly tokens :=
  fun l member => each l (own ▸ member)

theorem orderly_of_flat (flat : n.lists = []) (tokens : List Token) : n.Orderly tokens :=
  orderly_of_lists flat (by simp)

theorem lists_of_isPhrase (phrase : n.isPhrase = true) : n.lists = [] := by
  cases n with
  | file | script | declaration | statement | ifPart | caseBlock | tryPart =>
    simp [isPhrase] at phrase
  | _ => rfl

/-- There are no statements in a phrase. -/
theorem orderly_of_isPhrase (phrase : n.isPhrase = true) (tokens : List Token) :
    n.Everywhere (Orderly tokens) := by
  fun_induction openBelow n with
  | case1 n ih =>
    refine everywhere_iff.2 ⟨orderly_of_flat (lists_of_isPhrase phrase) tokens, fun c member => ?_⟩
    exact ih ⟨c, member⟩ (List.all_eq_true.1 (all_children_isPhrase phrase) c member)

-- Ranks

theorem rank_of_isAllowedIn (allowed : n.isAllowedIn .script = true) : n.rank = 2 := by
  cases n with
  | declaration d =>
    cases d with
    | typeList l =>
      simp only [isAllowedIn, Declaration.isAllowedIn, Bool.and_eq_true] at allowed
      cases kind : l.kind <;> simp [kind, TypeListKind.isAllowedIn] at allowed
    | _ => rfl
  | _ => rfl

/-- The statements of a list have no order of their own. -/
theorem Roster.ofStatements (apart : ns.IsChain (Apart tokens))
    (allowed : ∀ n ∈ ns, n.isAllowedIn .script = true) : Roster tokens .script ns := by
  refine ⟨apart, allowed, List.Pairwise.imp_of_mem (fun first second _ => ?_)
    (List.pairwise_of_forall fun _ _ => trivial)⟩
  have first := rank_of_isAllowedIn (allowed _ first)
  have second := rank_of_isAllowedIn (allowed _ second)
  exact ⟨by omega, fun _ none => by omega⟩

end VisualBasic.Node
