import DocModel.Proofs.Text.Lines
import DocModel.Syntax.Source

/-!
# The block comments of a source

A comment node says between which bytes of the source it stands. If that is true, the comment has as
many lines as its first and its last line are apart, so a line of its text stands on a line of the
source between the two (`BlockComment.startLine_add_le`).

The comments of a source are the block comments among the comment nodes of its tree, sorted by their
first bytes; if these are different, the order is strict (`Source.pairwise_comments_of_nodup`).
-/

namespace DocModel

/-! ## Bytes -/

namespace Text

/-- The number of bytes of a text. -/
def byteLength : Text → Nat
  | [] => 0
  | c :: cs => c.utf8Size + byteLength cs

theorem byteLength_append (t u : Text) : byteLength (t ++ u) = byteLength t + byteLength u := by
  induction t with
  | nil => exact (Nat.zero_add _).symm
  | cons c cs ih => rw [List.cons_append, byteLength, byteLength, ih, Nat.add_assoc]

theorem dropBytes_byteLength (t u : Text) : dropBytes (byteLength t) (t ++ u) = u := by
  induction t with
  | nil => rw [byteLength, List.nil_append, dropBytes]
  | cons c cs ih =>
    obtain ⟨n, hn⟩ := Nat.exists_eq_add_one.mpr
      (Nat.add_pos_left (Char.utf8Size_pos c) (byteLength cs))
    rw [byteLength, hn, List.cons_append, dropBytes, ← hn, Nat.add_sub_cancel_left, ih]

theorem takeBytes_byteLength (t u : Text) : takeBytes (byteLength t) (t ++ u) = t := by
  induction t with
  | nil => rw [byteLength, takeBytes]
  | cons c cs ih =>
    obtain ⟨n, hn⟩ := Nat.exists_eq_add_one.mpr
      (Nat.add_pos_left (Char.utf8Size_pos c) (byteLength cs))
    rw [byteLength, hn, List.cons_append, takeBytes, ← hn, Nat.add_sub_cancel_left, ih]

/-- **A true range of bytes**: a stretch of the source takes up the bytes from `start` to `stop`. -/
def IsRange (source : Text) (start stop : Nat) : Prop :=
  ∃ before stretch after, source = before ++ stretch ++ after ∧ byteLength before = start ∧
    byteLength (before ++ stretch) = stop

/-- A range holds as many line feeds as there are between its ends. -/
theorem IsRange.rowAt {source : Text} {start stop : Nat} (h : IsRange source start stop) :
    rowAt start source + (sliceBytes start stop source).count '\n' = rowAt stop source := by
  obtain ⟨before, stretch, after, rfl, rfl, rfl⟩ := h
  have hslice : sliceBytes (byteLength before) (byteLength (before ++ stretch))
      (before ++ stretch ++ after) = stretch := by
    rw [sliceBytes, byteLength_append, Nat.add_sub_cancel_left, List.append_assoc,
      dropBytes_byteLength, takeBytes_byteLength]
  rw [hslice, Text.rowAt, Text.rowAt, takeBytes_byteLength, List.append_assoc,
    takeBytes_byteLength, List.count_append]

theorem length_lines (t : Text) : (lines t).length = t.count '\n' + 1 := by
  induction t with
  | nil => rfl
  | cons c t ih =>
    by_cases hc : c = '\n'
    · rw [hc, lines_feed, List.length_cons, ih, List.count_cons_self]
    · obtain ⟨line, rest, ht, hct⟩ := lines_cons hc t
      rw [hct, List.length_cons, List.count_cons_of_ne hc, ← ih, ht, List.length_cons]

end Text

/-! ## Comments -/

namespace SyntaxTree

mutual

/-- The comment nodes of a tree, from left to right; what is inside a comment belongs to it. -/
def commentNodes : SyntaxTree → List SyntaxTree
  | .node kind named start stop role children =>
    if kind = "comment" then [.node kind named start stop role children]
    else commentNodesEach children

/-- The comment nodes of several trees. -/
def commentNodesEach : List SyntaxTree → List SyntaxTree
  | [] => []
  | t :: ts => commentNodes t ++ commentNodesEach ts

end

end SyntaxTree

namespace BlockComment

/-- The block comment that a node is, if it is one. -/
def ofNode? (source : Text) (t : SyntaxTree) : Option BlockComment :=
  ofBytes? source t.start t.stop

mutual

theorem ofTree_eq_filterMap (source : Text) : ∀ t : SyntaxTree,
    ofTree source t = t.commentNodes.filterMap (ofNode? source)
  | .node kind named start stop role children => by
    rw [ofTree, SyntaxTree.commentNodes]
    by_cases hkind : kind = "comment"
    · rw [if_pos (beq_iff_eq.mpr hkind), if_pos hkind, List.filterMap_cons, List.filterMap_nil]
      have hnode : ofNode? source (.node kind named start stop role children)
          = ofBytes? source start stop := rfl
      rw [hnode]
      cases ofBytes? source start stop <;> rfl
    · rw [if_neg (mt beq_iff_eq.mp hkind), if_neg hkind]
      exact ofTrees_eq_filterMap source children

theorem ofTrees_eq_filterMap (source : Text) : ∀ ts : List SyntaxTree,
    ofTrees source ts = (SyntaxTree.commentNodesEach ts).filterMap (ofNode? source)
  | [] => rfl
  | t :: ts => by
    rw [ofTrees, SyntaxTree.commentNodesEach, List.filterMap_append, ofTree_eq_filterMap source t,
      ofTrees_eq_filterMap source ts]

end

/-- What a block comment takes from its node. -/
theorem ofNode?_eq_some {source : Text} {t : SyntaxTree} {c : BlockComment}
    (h : ofNode? source t = some c) :
    c.startByte = t.start ∧ c.value = stripDelimiters (Text.sliceBytes t.start t.stop source) ∧
      c.startLine = Text.rowAt t.start source + 1 ∧ c.endLine = Text.rowAt t.stop source + 1 := by
  unfold ofNode? ofBytes? at h
  dsimp only at h
  split at h
  · cases h
    exact ⟨rfl, rfl, rfl, rfl⟩
  · cases h

theorem stripDelimiters_isInfix (text : Text) : stripDelimiters text <:+: text := by
  have hdrop : text.drop 2 <:+: text := (List.drop_suffix 2 text).isInfix
  rw [stripDelimiters]
  split
  · exact ((List.dropLast_prefix _).trans (List.dropLast_prefix _)).isInfix.trans hdrop
  · exact hdrop

/-- **The lines of a comment are lines of the source.** -/
theorem startLine_add_le {source : Text} {t : SyntaxTree} {c : BlockComment}
    (h : ofNode? source t = some c) (hrange : Text.IsRange source t.start t.stop) {i : Nat}
    (hi : i < (Text.lines c.value).length) : c.startLine + i ≤ c.endLine := by
  obtain ⟨-, hvalue, hstart, hend⟩ := ofNode?_eq_some h
  have hcount : c.value.count '\n' ≤ (Text.sliceBytes t.start t.stop source).count '\n' := by
    rw [hvalue]
    exact (stripDelimiters_isInfix _).sublist.count_le _
  have hrows := hrange.rowAt
  rw [Text.length_lines] at hi
  omega

end BlockComment

namespace Source

/-- The comments of a tree in which they stand in order need no sorting. -/
theorem ofTree_of_pairwise {text : Text} {tree : SyntaxTree}
    (h : (BlockComment.ofTree text tree).Pairwise (·.startByte ≤ ·.startByte)) :
    ofTree text tree = ⟨text, .ofTree text tree, BlockComment.ofTree text tree⟩ := by
  rw [ofTree, List.mergeSort_of_pairwise (h.imp fun hle => decide_eq_true hle)]

/-- A comment of a source is one of its comment nodes. -/
theorem mem_comments {text : Text} {tree : SyntaxTree} {c : BlockComment} :
    c ∈ (ofTree text tree).comments ↔
      ∃ t ∈ tree.commentNodes, BlockComment.ofNode? text t = some c := by
  rw [ofTree, List.mem_mergeSort, BlockComment.ofTree_eq_filterMap, List.mem_filterMap]

/-- **Comments that start on different bytes stand in the order of these bytes.** -/
theorem pairwise_comments_of_nodup {text : Text} {tree : SyntaxTree}
    (hdistinct : ((ofTree text tree).comments.map (·.startByte)).Nodup) :
    (ofTree text tree).comments.Pairwise (·.startByte < ·.startByte) := by
  have hsorted : (ofTree text tree).comments.Pairwise fun c d =>
      decide (c.startByte ≤ d.startByte) = true :=
    List.pairwise_mergeSort (fun a b c hab hbc => by simp_all; omega)
      (fun a b => by simp; omega) _
  refine (hsorted.and (List.pairwise_map.mp hdistinct)).imp fun ⟨hle, hne⟩ => ?_
  exact Nat.lt_of_le_of_ne (of_decide_eq_true hle) hne

/-- Comments stand in strict order if all comment nodes start on different bytes. -/
theorem pairwise_comments {text : Text} {tree : SyntaxTree}
    (hdistinct : (tree.commentNodes.map (·.start)).Nodup) :
    (ofTree text tree).comments.Pairwise (·.startByte < ·.startByte) := by
  refine pairwise_comments_of_nodup (List.pairwise_map.mpr ?_)
  rw [ofTree, (List.mergeSort_perm _ _).pairwise_iff (fun h => h.symm),
    BlockComment.ofTree_eq_filterMap, List.pairwise_filterMap]
  refine (List.pairwise_map.mp hdistinct).imp fun hne c hc d hd => ?_
  rwa [(BlockComment.ofNode?_eq_some hc).1, (BlockComment.ofNode?_eq_some hd).1]

end Source

end DocModel
