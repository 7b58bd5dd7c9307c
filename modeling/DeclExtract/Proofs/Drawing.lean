import DeclExtract.Proofs.Merge.Anonymous
import DeclExtract.Proofs.Merge.Contents
import DeclExtract.Proofs.Merge.Edges
import DeclExtract.Proofs.Text.SelfDelimiting

/-!
# Drawings are faithful

The drawing of a graph is one line per node and one line per edge. Each line can be told from the
text that it starts (`Line.selfDelimiting_text`): a number ends at a blank, and a label ends at the
first quote that is not escaped, whatever the name in it is. So no name can end its label, start a
line, or pass for an edge, and the drawing tells the lines (`dot_eq_iff_lines`).

From the lines the graph can be told as far as it is drawn (`DrawnAlike`). A label tells the kind,
and the name unless the kind is that of a root (`label_eq_iff`). The edges stand node by node, and
those of one kind that leave one node can be picked out in their order (`WellFormed.filter_edges`).
-/

namespace DeclExtract

attribute [ext] Edge

/-- A kind can be told by its name. -/
theorem NodeKind.text_injective : Function.Injective NodeKind.text := fun k k' h ↦ by
  rw [← Option.some_inj, ← named?_text, h, named?_text]

/-- A kind of edge can be told by its name. -/
theorem EdgeKind.text_injective : Function.Injective EdgeKind.text := fun k k' h ↦ by
  rw [← Option.some_inj, ← named?_text, h, named?_text]

namespace UseGraph

open Text

variable {g g' : UseGraph} {n n' : Node} {id : Nat}

/-! ### Labels between quotes -/

/-- A character of a label can be told from what it is written as. -/
theorem selfDelimiting_labelChar : SelfDelimiting labelChar := by
  intro c d rest rest' heq
  unfold labelChar at heq
  split_ifs at heq <;> grind

/-- No character of a label is written with a quote in front. -/
theorem labelChar_append_ne (c : Char) (rest rest' : List Char) :
    labelChar c ++ rest ≠ ['"'] ++ rest' := by
  unfold labelChar
  split_ifs <;> simp_all

/-- **A label ends at its closing quote**, whatever is in it. -/
theorem selfDelimiting_quotedLabel : SelfDelimiting quotedLabel := by
  have hbody : SelfDelimiting fun cs : List Char ↦ cs.flatMap labelChar ++ ['"'] :=
    selfDelimiting_labelChar.list labelChar_append_ne
  intro s t rest rest' heq
  obtain ⟨hlabel, hrest⟩ := hbody (List.cons.inj heq).2
  exact ⟨String.toList_inj.mp hlabel, hrest⟩

/-- The attributes of something that is drawn with a label, from the opening bracket on. -/
def attributes (s : String) : List Char :=
  "[ label = ".toList ++ (quotedLabel s ++ " ]\n".toList)

theorem labelled_eq (s : String) : labelled s = ' ' :: attributes s := rfl

theorem attributes_eq (s : String) :
    attributes s = '[' :: (" label = ".toList ++ (quotedLabel s ++ " ]\n".toList)) := rfl

theorem selfDelimiting_attributes : SelfDelimiting attributes :=
  selfDelimiting_quotedLabel.between "[ label = ".toList " ]\n".toList

/-! ### Lines -/

/-- What a line of a drawing shows: the label of a node, or an edge. -/
inductive Line where
  | node (id : Nat) (label : String)
  | edge (e : Edge)

namespace Line

/-- The line as it is drawn. -/
def text : Line → List Char
  | .node id label => indent ++ (toString id).toList ++ labelled label
  | .edge e => edgeLine e

/-- The line of a node. -/
def ofNode (n : Node) : Line :=
  .node n.id (label n)

/-- The edge that a line shows. -/
def edge? : Line → Option Edge
  | .node _ _ => none
  | .edge e => some e

/-- The line of a node goes on with a bracket after the number. -/
theorem text_node_append (id : Nat) (label : String) (rest : List Char) :
    (Line.node id label).text ++ rest =
    indent ++ (((toString id).toList ++ [' ']) ++ (attributes label ++ rest)) := by
  unfold text
  simp only [labelled_eq, List.append_assoc, List.cons_append, List.nil_append]

/-- The line of an edge goes on with an arrow. -/
theorem text_edge_append (e : Edge) (rest : List Char) : (Line.edge e).text ++ rest =
    indent ++ (((toString e.source).toList ++ [' ']) ++
      ('-' :: '>' :: ' '
        :: (((toString e.target).toList ++ [' ']) ++ (attributes e.kind.text ++ rest)))) := by
  have harrow : " -> ".toList = [' ', '-', '>', ' '] := rfl
  unfold text edgeLine
  simp only [harrow, labelled_eq, List.append_assoc, List.cons_append, List.nil_append]

/-- No line of a node passes for the line of an edge. -/
theorem text_node_append_ne (id : Nat) (label : String) (e : Edge) (rest rest' : List Char) :
    (Line.node id label).text ++ rest ≠ (Line.edge e).text ++ rest' := by
  intro heq
  rw [text_node_append, text_edge_append] at heq
  obtain ⟨-, hmark⟩ := SelfDelimiting.decimal (List.append_cancel_left heq)
  rw [attributes_eq] at hmark
  exact absurd (List.cons.inj hmark).1 (by decide)

/-- **A line can be told from the text that it starts.** -/
theorem selfDelimiting_text : SelfDelimiting Line.text := by
  intro x y rest rest' heq
  cases x with
  | node id label =>
    cases y with
    | node id' label' =>
      rw [text_node_append, text_node_append] at heq
      obtain ⟨hid, hafter⟩ := SelfDelimiting.decimal (List.append_cancel_left heq)
      obtain ⟨hlabel, hrest⟩ := selfDelimiting_attributes hafter
      exact ⟨by rw [hid, hlabel], hrest⟩
    | edge e => exact absurd heq (text_node_append_ne id label e rest rest')
  | edge e =>
    cases y with
    | node id label => exact absurd heq.symm (text_node_append_ne id label e rest' rest)
    | edge e' =>
      rw [text_edge_append, text_edge_append] at heq
      obtain ⟨hsource, hafter⟩ := SelfDelimiting.decimal (List.append_cancel_left heq)
      simp only [List.cons.injEq, true_and] at hafter
      obtain ⟨htarget, hlabel⟩ := SelfDelimiting.decimal hafter
      obtain ⟨hkind, hrest⟩ := selfDelimiting_attributes hlabel
      exact ⟨congrArg Line.edge (Edge.ext hsource htarget (EdgeKind.text_injective hkind)), hrest⟩

/-- Every line starts with a blank, so none passes for the end of a drawing. -/
theorem text_append_ne (x : Line) (rest rest' : List Char) :
    x.text ++ rest ≠ "\x7d\n".toList ++ rest' := by
  have hindent : indent = ' ' :: "   ".toList := rfl
  have hclose : "\x7d\n".toList = ['\x7d', '\n'] := rfl
  cases x with
  | node id label => simp [text_node_append, hindent, hclose]
  | edge e => simp [text_edge_append, hindent, hclose]

end Line

/-- The lines of a drawing. -/
def lines (g : UseGraph) (withOwns : Bool) : List Line :=
  g.nodes.toList.map .ofNode ++ (g.edges withOwns).map .edge

/-- A drawing is made up of its lines. -/
theorem dot_eq (g : UseGraph) (withOwns : Bool) : g.dot withOwns =
    String.ofList
    ("digraph \x7b\n".toList ++ ((g.lines withOwns).flatMap Line.text ++ "\x7d\n".toList)) := by
  rw [lines, List.flatMap_append, List.flatMap_map, List.flatMap_map, List.append_assoc,
    ← List.append_assoc]
  exact congrArg String.ofList (List.append_assoc _ _ _)

/-- **The drawing tells the lines**, whatever the names in them are. -/
theorem dot_eq_iff_lines {withOwns : Bool} :
    g.dot withOwns = g'.dot withOwns ↔ g.lines withOwns = g'.lines withOwns := by
  refine ⟨fun h ↦ ?_, fun h ↦ by rw [dot_eq, dot_eq, h]⟩
  rw [dot_eq, dot_eq, String.ofList_inj] at h
  exact (Line.selfDelimiting_text.list Line.text_append_ne).injective (List.append_cancel_left h)

/-- Lines of nodes come first, so the lines tell those of the nodes and the edges. -/
theorem lines_eq_iff {withOwns : Bool} : g.lines withOwns = g'.lines withOwns ↔
    g.nodes.toList.map Line.ofNode = g'.nodes.toList.map Line.ofNode
      ∧ g.edges withOwns = g'.edges withOwns := by
  constructor
  · intro heq
    have hedges : g.edges withOwns = g'.edges withOwns := by
      simpa [lines, List.filterMap_append, List.filterMap_map, Function.comp_def, Line.edge?,
        Line.ofNode] using congrArg (List.filterMap Line.edge?) heq
    rw [lines, lines, hedges] at heq
    exact ⟨List.append_cancel_right heq, hedges⟩
  · rintro ⟨hnodes, hedges⟩
    rw [lines, lines, hnodes, hedges]

/-! ### Labels -/

/-- The label of a node that is not the root: a word up to a blank, which tells the kind, and then
the name and the id. -/
theorem toList_label (hid : n.id ≠ 0) : (label n).toList =
    if n.kind = .root then "(subgraph".toList ++ ' ' :: ((toString n.id).toList ++ [')'])
    else n.kind.text.toList ++ ' '
        :: (n.name.toList ++ (" (".toList ++ ((toString n.id).toList ++ [')']))) := by
  have hsubgraph : "(subgraph ".toList = "(subgraph".toList ++ [' '] := rfl
  have hblank : " ".toList = [' '] := rfl
  have hclose : ")".toList = [')'] := rfl
  rw [label, if_neg hid]
  split_ifs
  · rw [String.toList_append, String.toList_append, hsubgraph, hclose]
    simp only [List.append_assoc, List.cons_append, List.nil_append]
  · simp only [String.toList_append, hblank, hclose, List.append_assoc, List.cons_append,
      List.nil_append]

/-- The word for a kind has no blank in it, and is not the word for a root. -/
theorem kind_word (k : NodeKind) : ' ' ∉ k.text.toList ∧ k.text ≠ "(subgraph" := by
  cases k <;> decide

/-- **A label tells the kind, and the name unless the kind is that of a root.** -/
theorem label_eq_iff (hid : n.id = n'.id) (hroot : n.id = 0 → n.kind = .root)
    (hroot' : n'.id = 0 → n'.kind = .root) :
    label n = label n' ↔ n.kind = n'.kind ∧ (n.kind ≠ .root → n.name = n'.name) := by
  have hword : ' ' ∉ "(subgraph".toList := by decide
  by_cases hzero : n.id = 0
  · have hzero' : n'.id = 0 := hid ▸ hzero
    simp [label, hzero, hzero', hroot, hroot']
  · rw [← String.toList_inj, toList_label hzero, toList_label (hid ▸ hzero), hid]
    split_ifs with hkind hkind' hkind'
    · simp [hkind, hkind']
    · refine iff_of_false (fun heq ↦ ?_) fun ⟨h, _⟩ ↦ hkind' (h ▸ hkind)
      exact (kind_word _).2
        (String.toList_inj.mp (append_mark_inj hword (kind_word _).1 heq).1).symm
    · refine iff_of_false (fun heq ↦ ?_) fun ⟨h, _⟩ ↦ hkind (h ▸ hkind')
      exact (kind_word _).2 (String.toList_inj.mp (append_mark_inj (kind_word _).1 hword heq).1)
    · constructor
      · intro heq
        obtain ⟨htext, hafter⟩ := append_mark_inj (kind_word _).1 (kind_word _).1 heq
        exact ⟨NodeKind.text_injective (String.toList_inj.mp htext),
          fun _ ↦ String.toList_inj.mp (List.append_cancel_right hafter)⟩
      · rintro ⟨hsame, hname⟩
        rw [hsame, hname hkind]

/-! ### Edges -/

/-- The edges of one kind that leave a node, picked out of all that leave some node. -/
theorem filter_edgesFrom (m : Node) (kind : EdgeKind) :
    (edgesFrom m true).filter (fun e ↦ e.source = id ∧ e.kind = kind)
      = if m.id = id then (m.along kind).map fun t ↦ ⟨id, t, kind⟩ else [] := by
  by_cases hid : m.id = id <;> cases kind <;>
    simp [edgesFrom, Node.along, List.filter_map, Function.comp_def, hid]

/-- **The edges of one kind that leave a node can be picked out of the edges of the graph**, in
their order. -/
theorem WellFormed.filter_edges (h : g.WellFormed) (hn : g.node? id = some n) (kind : EdgeKind) :
    (g.edges true).filter (fun e ↦ e.source = id ∧ e.kind = kind)
      = (n.along kind).map fun t ↦ ⟨id, t, kind⟩ := by
  have hid (other : Nat) (hlt : other < g.nodes.toList.length) : g.nodes.toList[other].id = other :=
    h.id_eq (Array.getElem?_eq_getElem hlt)
  have hsplit : g.nodes.toList = g.nodes.toList.take id ++ n :: g.nodes.toList.drop (id + 1) := by
    obtain ⟨hlt, rfl⟩ := Array.getElem?_eq_some_iff.mp hn
    rw [← Array.getElem_toList, List.cons_getElem_drop_succ, List.take_append_drop]
  -- every other node stands before or after, under another id
  have hbefore : ∀ m ∈ g.nodes.toList.take id, m.id ≠ id := fun m hm ↦ by
    obtain ⟨other, hother, rfl⟩ := List.mem_take_iff_getElem.mp hm
    rw [hid]
    omega
  have hafter : ∀ m ∈ g.nodes.toList.drop (id + 1), m.id ≠ id := fun m hm ↦ by
    obtain ⟨other, hother, rfl⟩ := List.mem_drop_iff_getElem.mp hm
    rw [hid]
    omega
  have hnil {ms : List Node} (hms : ∀ m ∈ ms, m.id ≠ id) :
      ms.flatMap (fun m ↦ (edgesFrom m true).filter fun e ↦ e.source = id ∧ e.kind = kind) = [] :=
    List.flatMap_eq_nil_iff.mpr fun m hm ↦ by rw [filter_edgesFrom, if_neg (hms m hm)]
  rw [edges, hsplit, List.filter_flatMap, List.flatMap_append, List.flatMap_cons, hnil hbefore,
    hnil hafter, filter_edgesFrom, if_pos (h.id_eq hn), List.nil_append, List.append_nil]

/-- So the edges tell what a node uses and what it owns. -/
theorem WellFormed.along_eq (h : g.WellFormed) (h' : g'.WellFormed)
    (hedges : g.edges true = g'.edges true) (hn : g.node? id = some n) (hn' : g'.node? id = some n')
    (kind : EdgeKind) : n.along kind = n'.along kind := by
  have hpicked := h.filter_edges hn kind
  rw [hedges, h'.filter_edges hn' kind] at hpicked
  exact (List.map_injective_iff.mpr (fun t t' ht ↦ (Edge.mk.inj ht).2.1) hpicked).symm

/-! ### Graphs that are drawn alike -/

/-- Lists of what is read off the nodes are equal if the graphs have the same size, and nodes with
the same id the same value. -/
theorem map_nodes_eq_iff {α : Type} {f : Node → α} : g.nodes.toList.map f = g'.nodes.toList.map f ↔
    g.size = g'.size ∧ ∀ ⦃id n n'⦄, g.node? id = some n → g'.node? id = some n' → f n = f n' := by
  constructor
  · intro heq
    refine ⟨by simpa [size] using congrArg List.length heq, fun id n n' hn hn' ↦ ?_⟩
    have hid := congrArg (·[id]?) heq
    simpa [show g.nodes[id]? = some n from hn, show g'.nodes[id]? = some n' from hn'] using hid
  · rintro ⟨hsize, hsame⟩
    refine List.ext_getElem (by simpa [size] using hsize) fun id hlt hlt' ↦ ?_
    rw [List.getElem_map, List.getElem_map]
    exact hsame (Array.getElem?_eq_getElem _) (Array.getElem?_eq_getElem _)

end UseGraph

/-- Two nodes are drawn alike if they differ in nothing that a drawing shows: the name of a root,
the place in the source, the visibility and what is known of a type may differ. -/
structure Node.DrawnAlike (n n' : Node) : Prop where
  kind_eq : n.kind = n'.kind
  name_eq : n.kind ≠ .root → n.name = n'.name
  uses_eq : n.uses = n'.uses
  owns_eq : n.owns = n'.owns

/-- Two graphs are drawn alike if they have the same number of nodes, and nodes with the same id are
drawn alike. -/
structure UseGraph.DrawnAlike (g g' : UseGraph) : Prop where
  size_eq : g.size = g'.size
  node_alike : ∀ ⦃id n n'⦄, g.node? id = some n → g'.node? id = some n' → n.DrawnAlike n'

namespace UseGraph

variable {g g' : UseGraph} {n n' : Node} {id : Nat}

/-- The lines of two well-formed graphs with roots are the same if the graphs are drawn alike. -/
theorem WellFormed.lines_eq_iff_drawnAlike (h : g.WellFormed) (hroot : g.Rooted)
    (h' : g'.WellFormed) (hroot' : g'.Rooted) : g.lines true = g'.lines true ↔ g.DrawnAlike g' := by
  have hid {id : Nat} {n n' : Node} (hn : g.node? id = some n) (hn' : g'.node? id = some n') :
      n.id = n'.id := (h.id_eq hn).trans (h'.id_eq hn').symm
  have hlabel {id : Nat} {n n' : Node} (hn : g.node? id = some n) (hn' : g'.node? id = some n') :
      label n = label n' ↔ n.kind = n'.kind ∧ (n.kind ≠ .root → n.name = n'.name) :=
    label_eq_iff (hid hn hn') (fun hzero ↦ hroot.kind_eq (by rwa [← h.id_eq hn, hzero] at hn))
      (fun hzero ↦ hroot'.kind_eq (by rwa [← h'.id_eq hn', hzero] at hn'))
  rw [lines_eq_iff, map_nodes_eq_iff]
  constructor
  · rintro ⟨⟨hsize, hsame⟩, hedges⟩
    refine ⟨hsize, fun id n n' hn hn' ↦ ?_⟩
    obtain ⟨hkind, hname⟩ := (hlabel hn hn').mp (Line.node.inj (hsame hn hn')).2
    exact ⟨hkind, hname, h.along_eq h' hedges hn hn' .uses, h.along_eq h' hedges hn hn' .owns⟩
  · rintro ⟨hsize, halike⟩
    refine ⟨⟨hsize, fun id n n' hn hn' ↦ ?_⟩, ?_⟩
    · have hsame := halike hn hn'
      rw [Line.ofNode, Line.ofNode, hid hn hn', (hlabel hn hn').mpr ⟨hsame.kind_eq, hsame.name_eq⟩]
    · have hedges :
          g.nodes.toList.map (edgesFrom · true) = g'.nodes.toList.map (edgesFrom · true) := by
        refine map_nodes_eq_iff.mpr ⟨hsize, fun id n n' hn hn' ↦ ?_⟩
        have hsame := halike hn hn'
        rw [edgesFrom, edgesFrom, hid hn hn', hsame.uses_eq, hsame.owns_eq]
      rw [edges, edges, List.flatMap_def, List.flatMap_def, hedges]

/-- **Drawings are faithful.** The drawings of two finished graphs with their containment are the
same text exactly if the graphs are drawn alike: no name forges a node or an edge. -/
theorem dot_eq_iff_drawnAlike {bs bs' : List Batch} (hg : (ofBatches bs).result = .ok g)
    (hg' : (ofBatches bs').result = .ok g') : g.dot true = g'.dot true ↔ g.DrawnAlike g' :=
  dot_eq_iff_lines.trans
  ((wellFormed_of_ofBatches hg).lines_eq_iff_drawnAlike (rooted_of_ofBatches hg)
    (wellFormed_of_ofBatches hg') (rooted_of_ofBatches hg'))

/-- A function whose name would go on as the line of another function, if nothing in it were
escaped. -/
def forger : Node :=
  { anonymousMain with name := "main (1)\" ]\n    2 [ label = \"function init" }

/-- **A forged line is no line**: the function is drawn otherwise than the two that its name makes
up. -/
theorem dot_forger_ne : ∃ g g', (ofBatches [⟨[forger]⟩]).result = .ok g
    ∧ (ofBatches [⟨[anonymousMain]⟩, ⟨[{ anonymousMain with name := "init" }]⟩]).result = .ok g'
    ∧ (g.dot true = g'.dot true ↔ g.DrawnAlike g') ∧ g.dot true ≠ g'.dot true := by
  have hcheck : ∀ b ∈ [(⟨[forger]⟩ : Batch)], b.check = .ok () := by decide
  have hcheck' : ∀ b ∈ [(⟨[anonymousMain]⟩ : Batch), ⟨[{ anonymousMain with name := "init" }]⟩],
      b.check = .ok () := by
    decide
  obtain ⟨-, m, -, -, hg⟩ := exists_run_ofBatches hcheck
  obtain ⟨-, m', -, -, hg'⟩ := exists_run_ofBatches hcheck'
  have hsize : m.graph.size = 2 := by
    have hmap : (ofBatches [⟨[forger]⟩]).result.map size = .ok 2 := by decide +kernel
    rw [hg] at hmap
    exact Except.ok.inj hmap
  have hsize' : m'.graph.size = 3 := by
    have hmap :
        (ofBatches [⟨[anonymousMain]⟩, ⟨[{ anonymousMain with name := "init" }]⟩]).result.map size
          = .ok 3 := by
      decide +kernel
    rw [hg'] at hmap
    exact Except.ok.inj hmap
  have hfaithful := dot_eq_iff_drawnAlike hg hg'
  refine ⟨m.graph, m'.graph, hg, hg', hfaithful, fun heq ↦ ?_⟩
  have hsame := (hfaithful.mp heq).size_eq
  omega

end UseGraph

end DeclExtract
