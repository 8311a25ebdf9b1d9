import Descent.Tensor.Linear
/-!
# Tensors that hold matrices

On tensors with two equal axes the routines of linear algebra are those on square matrices:
nothing is stretched, and every shape fits.
-/

namespace Descent.Tensor

/-! ## Shapes and positions -/

theorem commonReversed_self (shape : List Nat) : commonReversed shape shape = some shape := by
  induction shape with
  | nil => rfl
  | cons extent rest ih => simp [commonReversed, commonExtent_self, ih]

theorem commonShape_self (shape : List Nat) : commonShape shape shape = some shape := by
  simp [commonShape, commonReversed_self]

section Pairs

variable {m n i j : Nat}

theorem ravel_pair : ravel [m, n] [i, j] = i * n + j := by
  simp [ravel, volume]

theorem position_div_mod (hj : j < n) : (i * n + j) / n = i ∧ (i * n + j) % n = j := by
  rw [Nat.add_comm]
  constructor
  · rw [Nat.add_mul_div_right _ _ (Nat.zero_lt_of_lt hj), Nat.div_eq_of_lt hj, Nat.zero_add]
  · rw [Nat.add_mul_mod_self_right, Nat.mod_eq_of_lt hj]

theorem unravel_pair (hj : j < n) : unravel [m, n] (i * n + j) = [i, j] := by
  obtain ⟨row, column⟩ := position_div_mod (i := i) hj
  simp [unravel, volume, row, column]

theorem position_lt (hi : i < m) (hj : j < n) : i * n + j < volume [m, n] := by
  have rows : (i + 1) * n ≤ m * n := Nat.mul_le_mul_right n hi
  simp only [volume, List.foldr, Nat.mul_one]
  rw [Nat.succ_mul] at rows
  omega

theorem project_pair (hi : i < m) (hj : j < n) : project [m, n] [i, j] = [i, j] := by
  simp only [project, List.length_cons, List.length_nil, Nat.sub_self, List.drop_zero,
    List.zipWith_cons_cons, List.zipWith_nil_left]
  congr 1
  · split <;> omega
  · congr 1
    split <;> omega

variable {α : Type} [Zero α]

theorem get_mk_pair (entries : Vector α (volume [m, n])) (within : i * n + j < volume [m, n]) :
    get ⟨[m, n], entries⟩ [i, j] = entries[i * n + j] := by
  rw [get, ravel_pair, Vector.getElem?_eq_getElem within, Option.getD_some]

theorem get_ofFn_pair (entry : List Nat → α) (hi : i < m) (hj : j < n) :
    (ofFn [m, n] entry).get [i, j] = entry [i, j] := by
  rw [ofFn, get_mk_pair _ (position_lt hi hj), Vector.getElem_ofFn, unravel_pair hj]

end Pairs

/-! ## Matrices -/

theorem get_get_ofFn {α : Type} {n : Nat} (entry : Fin n → Fin n → α) (i j : Fin n) :
    ((SquareMatrix.ofFn entry).get i).get j = entry i j :=
  SquareMatrix.getElem_ofFn entry i j i.isLt j.isLt

section Entries

variable {α : Type} [Zero α] {n : Nat}

/-- A tensor is a square matrix, entry by entry. -/
structure Holds (t : Tensor α) (A : SquareMatrix α n) : Prop where
  shape_eq : t.shape = [n, n]
  get_eq (i j : Nat) (hi : i < n) (hj : j < n) : t.get [i, j] = A[i][j]

variable {s t : Tensor α} {A B : SquareMatrix α n}

theorem holds_ofFn (entry : List Nat → α) :
    (ofFn [n, n] entry).Holds (SquareMatrix.ofFn fun i j : Fin n => entry [i, j]) where
  shape_eq := rfl
  get_eq i j hi hj := by
    rw [get_ofFn_pair entry hi hj, SquareMatrix.getElem_ofFn]

theorem holds_ofRows (A : SquareMatrix α n) : (ofRows A).Holds A where
  shape_eq := rfl
  get_eq i j hi hj := by
    obtain ⟨row, column⟩ := position_div_mod (i := i) hj
    rw [ofRows, get_mk_pair _ (position_lt hi hj), Vector.getElem_cast, Vector.getElem_flatten]
    simp only [row, column]

namespace Holds

theorem transpose (holds : t.Holds A) : t.transpose.Holds A.transpose := by
  have transposed : t.transpose = ofFn [n, n] fun indices => t.get indices.reverse := by
    rw [Tensor.transpose, holds.shape_eq]
    rfl
  rw [transposed]
  refine ⟨rfl, fun i j hi hj => ?_⟩
  rw [get_ofFn_pair _ hi hj, SquareMatrix.getElem_transpose]
  exact holds.get_eq j i hj hi

theorem zipWith (f : α → α → α) (left : s.Holds A) (right : t.Holds B) :
    ∃ u, Tensor.zipWith f s t = .ok u ∧
      u.Holds (SquareMatrix.ofFn fun i j => f ((A.get i).get j) ((B.get i).get j)) := by
  refine ⟨_, by rw [Tensor.zipWith, left.shape_eq, right.shape_eq, commonShape_self], rfl,
    fun i j hi hj => ?_⟩
  rw [get_ofFn_pair _ hi hj, project_pair hi hj, left.get_eq i j hi hj, right.get_eq i j hi hj,
    SquareMatrix.getElem_ofFn]
  rfl

theorem map (f : α → α) (holds : t.Holds A) :
    (t.map f).Holds (SquareMatrix.ofFn fun i j => f ((A.get i).get j)) := by
  obtain ⟨shape, entries⟩ := t
  obtain ⟨rfl, get_eq⟩ := holds
  refine ⟨rfl, fun i j hi hj => ?_⟩
  have within := position_lt hi hj
  rw [Tensor.map, get_mk_pair _ within, Vector.getElem_map, SquareMatrix.getElem_ofFn,
    ← get_mk_pair entries within]
  exact congrArg f (get_eq i j hi hj)

theorem toSquare? (holds : t.Holds A) : t.toSquare? = some ⟨n, A⟩ := by
  have entries : (SquareMatrix.ofFn fun i j : Fin n => t.get [i, j]) = A := by
    ext i hi j hj
    rw [SquareMatrix.getElem_ofFn]
    exact holds.get_eq i j hi hj
  simp [Tensor.toSquare?, holds.shape_eq, entries]

end Holds

end Entries

/-! ## Routines -/

@[simp] theorem toVector?_ofVector {α : Type} {n : Nat} (b : Vector α n) :
    (ofVector b).toVector? n = some b := by
  simp [toVector?, toFlat?, ofVector, vector?]

namespace Holds

variable {α : Type} [Scalar α] {n : Nat} {t : Tensor α} {A : SquareMatrix α n}

theorem diagonal (holds : t.Holds A) : Tensor.diagonal t = .ok A.diagonal.toList := by
  obtain ⟨shape, entries⟩ := t
  obtain ⟨rfl, get_eq⟩ := holds
  refine congrArg Except.ok (List.ext_getElem (by simp) fun i hi hi' => ?_)
  have below : i < n := by simpa using hi
  have entry : A.diagonal[i] = A[i][i] := Vector.getElem_ofFn _
  rw [List.getElem_map, List.getElem_range, get_eq i i below below, Vector.getElem_toList, entry]

theorem isPosDef (holds : t.Holds A) : t.isPosDef = .ok A.isPosDef := by
  obtain ⟨sum, added, holdsSum⟩ := holds.zipWith (· + ·) holds.transpose
  have halved := (holdsSum.map (0.5 * ·)).toSquare?
  simp only [SquareMatrix.transpose, get_get_ofFn] at halved
  simp only [Tensor.isPosDef, added, bind, Except.bind, halved]
  rfl

theorem solve (holds : t.Holds A) (b : Vector α n) :
    t.solve (ofVector b) = ofVector <$> A.solve b := by
  have shape_eq : (ofVector b).shape = [n] := rfl
  simp only [Tensor.solve, holds.toSquare?, shape_eq, toVector?_ofVector]

theorem addRidge_eq (holds : t.Holds A) (ridge : α) :
    t.addRidge ridge = (do
      let scale ← SquareMatrix.ridgeScale A.diagonal.toList
      Tensor.zipWith (· + ·) t (scaledIdentity n (ridge * scale))) := by
  rw [Tensor.addRidge, holds.diagonal, holds.shape_eq]
  rfl

/-- Lifting the diagonal of a tensor lifts that of its matrix. -/
theorem addScaledIdentity (holds : t.Holds A) (shift : α) :
    ∃ u, Tensor.zipWith (· + ·) t (scaledIdentity n shift) = .ok u ∧
      u.Holds (A.addDiagonal shift) := by
  have identity : (scaledIdentity n shift).Holds
      (SquareMatrix.ofFn fun i j : Fin n => shift * if (i : Nat) = j then 1 else 0) :=
    holds_ofFn _
  obtain ⟨u, added, holdsSum⟩ := holds.zipWith (· + ·) identity
  simp only [get_get_ofFn, ← Fin.ext_iff] at holdsSum
  exact ⟨u, added, holdsSum⟩

theorem ridgeSolve (holds : t.Holds A) (b : Vector α n) (ridge : α) :
    t.ridgeSolve (ofVector b) ridge = ofVector <$> A.ridgeSolve b ridge := by
  rw [Tensor.ridgeSolve, holds.solve, SquareMatrix.solve, SquareMatrix.ridgeSolve]
  cases A.solve? b with
  | some x => rfl
  | none =>
      change (t.addRidge ridge >>= fun u => u.solve (ofVector b)) = _
      rw [holds.addRidge_eq]
      cases SquareMatrix.ridgeScale A.diagonal.toList with
      | error e => rfl
      | ok scale =>
          obtain ⟨u, added, holdsSum⟩ := holds.addScaledIdentity (ridge * scale)
          change (Tensor.zipWith (· + ·) t (scaledIdentity n (ridge * scale)) >>=
            fun u => u.solve (ofVector b)) = _
          rw [added]
          exact holdsSum.solve b

end Holds

end Descent.Tensor
