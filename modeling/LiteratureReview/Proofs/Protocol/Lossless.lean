/-
  LiteratureReview.Proofs.Protocol.Lossless
  ─────────────────────────────────────────
  Decoding a protocol undoes encoding it.

  What is written has its members in order of declaration, the tags of a
  category first; as a value it has them in order of their keys, the tags
  somewhere in between.  No decoder of the protocol depends on that
  (`ReviewProtocol.ignoresOrder_decode`), so either form is decoded as the
  protocol it was written of.

    • `ignoresOrder_decode` — a protocol is read in any order of its members,
    • `decode_undoes_encode` — a protocol that has been read from a document
      is read back from its value, and from its text unless it is too deep.
-/
import LiteratureReview.Proofs.Json.Sound
import LiteratureReview.Proofs.Json.Unordered
import LiteratureReview.Proofs.Protocol.RoundTrip

namespace LiteratureReview

open Json Decoder Fields

/-! ## §1. Sections in any order. -/

theorem Identifier.ignoresOrder_decode : Identifier.decode.IgnoresOrder :=
  ignoresOrder_checkedText

theorem NonEmptyText.ignoresOrder_decode : NonEmptyText.decode.IgnoresOrder :=
  ignoresOrder_checkedText

theorem ProjectSection.ignoresOrder_decode : ProjectSection.decode.IgnoresOrder :=
  type.ignoresOrder_decode <|
    (ignoresOrder_required Identifier.ignoresOrder_decode).map _
      |>.seq (ignoresOrder_required NonEmptyText.ignoresOrder_decode)
      |>.seq (ignoresOrder_optional ignoresOrder_text)

theorem NamedEntry.ignoresOrder_decode : NamedEntry.decode.IgnoresOrder :=
  type.ignoresOrder_decode <| (ignoresOrder_required NonEmptyText.ignoresOrder_decode).map _

theorem PhaseSection.ignoresOrder_decode : PhaseSection.decode.IgnoresOrder :=
  type.ignoresOrder_decode <|
    (ignoresOrder_required NonEmptyText.ignoresOrder_decode).map _
      |>.seq (ignoresOrder_optional ignoresOrder_text)
      |>.seq (ignoresOrder_optional (ignoresOrder_list Identifier.ignoresOrder_decode))

theorem ScreeningSection.ignoresOrder_decode : ScreeningSection.decode.IgnoresOrder := by
  have entries := ignoresOrder_list NamedEntry.ignoresOrder_decode
  have phases := ignoresOrder_list PhaseSection.ignoresOrder_decode
  exact type.ignoresOrder_decode <|
    (ignoresOrder_required ignoresOrder_u32).map _
      |>.seq (ignoresOrder_required ignoresOrder_choice)
      |>.seq (ignoresOrder_required ignoresOrder_choice)
      |>.seq (ignoresOrder_required entries)
      |>.seq (ignoresOrder_optional entries)
      |>.seq (ignoresOrder_optional entries)
      |>.seq (ignoresOrder_optional ignoresOrder_u32)
      |>.seq (ignoresOrder_optional ignoresOrder_choice)
      |>.seq (ignoresOrder_optional phases)

theorem ResponseSection.ignoresOrder_decode : ResponseSection.decode.IgnoresOrder :=
  type.ignoresOrder_decode <|
    (ignoresOrder_required NonEmptyText.ignoresOrder_decode).map _
      |>.seq (ignoresOrder_required ignoresOrder_double)

theorem QualitySection.ignoresOrder_decode : QualitySection.decode.IgnoresOrder :=
  type.ignoresOrder_decode <|
    (ignoresOrder_required (ignoresOrder_list NonEmptyText.ignoresOrder_decode)).map _
      |>.seq (ignoresOrder_required (ignoresOrder_list ResponseSection.ignoresOrder_decode))
      |>.seq (ignoresOrder_required ignoresOrder_double)

namespace Report

theorem ignoresOrder_decodeSimple : decodeSimple.IgnoresOrder :=
  simpleType.ignoresOrder_decode <|
    (ignoresOrder_required ignoresOrder_text).map _
      |>.seq (ignoresOrder_optional ignoresOrder_text)
      |>.seq (ignoresOrder_required Identifier.ignoresOrder_decode)
      |>.seq (ignoresOrder_required (ignoresOrder_list ignoresOrder_choice))

theorem ignoresOrder_decodeCompared : decodeCompared.IgnoresOrder :=
  comparedType.ignoresOrder_decode <|
    (ignoresOrder_required ignoresOrder_text).map _
      |>.seq (ignoresOrder_optional ignoresOrder_text)
      |>.seq (ignoresOrder_required Identifier.ignoresOrder_decode)
      |>.seq (ignoresOrder_required Identifier.ignoresOrder_decode)
      |>.seq (ignoresOrder_required (ignoresOrder_list ignoresOrder_choice))

/-- The decoder of a kind of report. -/
def variants (name : String) : Decoder Report :=
  if name = "Simple" then decodeSimple else decodeCompared

theorem decode_eq :
    decode = fun at_ v => union.split at_ v >>= fun c => variants c.1 .held c.2 := by
  funext at_ v
  unfold decode variants
  refine congrArg _ (funext fun c => ?_)
  obtain ⟨name, contents⟩ := c
  by_cases simple : name = "Simple" <;> simp [simple]

theorem ignoresOrder_decode : decode.IgnoresOrder := by
  rw [decode_eq]
  refine UnionType.ignoresOrder_tagged fun name => ?_
  unfold variants
  split
  · exact ignoresOrder_decodeSimple
  · exact ignoresOrder_decodeCompared

end Report

/-! ## §2. Categories in any order. -/

namespace Category

variable {child : Decoder Category}

theorem ignoresOrder_headOf : IgnoresOrder headOf :=
  (ignoresOrder_required Identifier.ignoresOrder_decode).map _
    |>.seq (ignoresOrder_optional ignoresOrder_text)
    |>.seq (ignoresOrder_required ignoresOrder_bool)
    |>.seq ((ignoresOrder_optional ignoresOrder_integer).map _)

theorem ignoresOrder_nodeOf {kind : Fields → Reading CategoryKind} (below : child.IgnoresOrder)
    (h : IgnoresOrder kind) : IgnoresOrder (nodeOf child kind) :=
  ignoresOrder_headOf.map _ |>.seq h |>.seq (ignoresOrder_optional (ignoresOrder_list below))

theorem ignoresOrder_decodeSimple (below : child.IgnoresOrder) :
    (decodeSimple child).IgnoresOrder :=
  simpleType.ignoresOrder_decode <| ignoresOrder_nodeOf below <|
    (ignoresOrder_required ignoresOrder_choice).map _
      |>.seq (ignoresOrder_optional ignoresOrder_u32)
      |>.seq (ignoresOrder_optional ignoresOrder_text)
      |>.seq (ignoresOrder_optional ignoresOrder_any)

theorem ignoresOrder_decodeList (below : child.IgnoresOrder) :
    (decodeList child).IgnoresOrder :=
  listType.ignoresOrder_decode <| ignoresOrder_nodeOf below <|
    (ignoresOrder_required (ignoresOrder_list NamedEntry.ignoresOrder_decode)).map _

theorem ignoresOrder_decodeIndependent (below : child.IgnoresOrder) :
    (decodeIndependent child).IgnoresOrder :=
  independentType.ignoresOrder_decode <| ignoresOrder_nodeOf below <|
    (ignoresOrder_optional ignoresOrder_text).map _
      |>.seq (ignoresOrder_required (ignoresOrder_list NamedEntry.ignoresOrder_decode))

theorem ignoresOrder_decodeDependent (below : child.IgnoresOrder) :
    (decodeDependent child).IgnoresOrder :=
  dependentType.ignoresOrder_decode <| ignoresOrder_nodeOf below <|
    (ignoresOrder_required Identifier.ignoresOrder_decode).map _

/-- The decoder of a kind of dynamic list. -/
def dynamicVariants (child : Decoder Category) (name : String) : Decoder Category :=
  if name = "Independent" then decodeIndependent child else decodeDependent child

/-- The decoder of a kind of category. -/
def variants (child : Decoder Category) (name : String) : Decoder Category :=
  if name = "Simple" then decodeSimple child
  else if name = "List" then decodeList child
  else decodeDynamicWith child

theorem decodeDynamicWith_eq : decodeDynamicWith child = fun at_ v =>
    dynamicUnion.split at_ v >>= fun c => dynamicVariants child c.1 .held c.2 := by
  funext at_ v
  unfold decodeDynamicWith dynamicVariants
  refine congrArg _ (funext fun c => ?_)
  obtain ⟨name, contents⟩ := c
  by_cases independent : name = "Independent" <;> simp [independent]

theorem decodeWith_eq : decodeWith child = fun at_ v =>
    union.split at_ v >>= fun c => variants child c.1 .held c.2 := by
  funext at_ v
  unfold decodeWith variants
  refine congrArg _ (funext fun c => ?_)
  obtain ⟨name, contents⟩ := c
  by_cases simple : name = "Simple"
  · simp [simple]
  · by_cases list : name = "List" <;> simp [simple, list]

/-- The second tag of a dynamic list is found wherever it stands. -/
theorem ignoresOrder_decodeDynamicWith (below : child.IgnoresOrder) :
    (decodeDynamicWith child).IgnoresOrder := by
  rw [decodeDynamicWith_eq]
  refine UnionType.ignoresOrder_tagged fun name => ?_
  unfold dynamicVariants
  split
  · exact ignoresOrder_decodeIndependent below
  · exact ignoresOrder_decodeDependent below

/-- One level of a tree is read in any order when the levels below are. -/
theorem ignoresOrder_decodeWith (below : child.IgnoresOrder) :
    (decodeWith child).IgnoresOrder := by
  rw [decodeWith_eq]
  refine UnionType.ignoresOrder_tagged fun name => ?_
  unfold variants
  split
  · exact ignoresOrder_decodeSimple below
  · split
    · exact ignoresOrder_decodeList below
    · exact ignoresOrder_decodeDynamicWith below

theorem ignoresOrder_decodeUpTo (levels : Nat) : (decodeUpTo levels).IgnoresOrder := by
  induction levels with
  | zero =>
    intro at_ v c proper
    simp [decodeUpTo, refuse]
  | succ levels ih => exact ignoresOrder_decodeWith ih

/-- **A tree is read in any order of its members.** -/
theorem ignoresOrder_decode : decode.IgnoresOrder := by
  intro at_ v c proper
  unfold decode
  rw [depth_normalize proper]
  exact ignoresOrder_decodeUpTo _ proper

end Category

/-! ## §3. Protocols. -/

namespace ReviewProtocol

variable {p : ReviewProtocol} {at_ : Standing} {v : Json}

/-- **A protocol is read in any order of its members.** -/
theorem ignoresOrder_decode : decode.IgnoresOrder :=
  type.ignoresOrder_decode <|
    (ignoresOrder_required ProjectSection.ignoresOrder_decode).map _
      |>.seq (ignoresOrder_optional ScreeningSection.ignoresOrder_decode)
      |>.seq (ignoresOrder_optional QualitySection.ignoresOrder_decode)
      |>.seq (ignoresOrder_required (ignoresOrder_list Category.ignoresOrder_decode))
      |>.seq (ignoresOrder_optional (ignoresOrder_list Report.ignoresOrder_decode))

/-- What is written of a protocol that has been read is decoded as the protocol, its
members sorted or not. -/
theorem decode_normalize_encode (numbers : v.HasProperNumbers) (read : decode at_ v = .ok p) :
    decode .free p.encode.normalize = .ok p := by
  have writable : p.IsWritable (v.depth + 6) :=
    isWritable_of_decode numbers (by omega) (by omega) read
  have proper : p.encode.IsProper := (holds_encode writable).1
  exact (ignoresOrder_decode proper).2 (decode_encode writable)

/-- Its text is read as the protocol, too, if it has less than 128 levels. -/
theorem ofText_toText (numbers : v.HasProperNumbers) (read : decode at_ v = .ok p)
    (shallow : p.encode.depth < Scan.levelLimit) : ofText p.toText = .ok p := by
  have writable : p.IsWritable (v.depth + 6) :=
    isWritable_of_decode numbers (by omega) (by omega) read
  exact readText_print (holds_encode writable) shallow (decode_encode writable)

/-- A dynamic list below another one, the tags of both among members out of order. -/
def nestedDocument : Json :=
  .object
    [("project", .object [("short_name", .text "p"), ("name", .text "P")]),
     ("category", .list
       [.object
         [("dynamic_subtype", .text "Independent"),
          ("name", .text "country"),
          ("initial_values", .list [.object [("name", .text "France")]]),
          ("mandatory", .bool true),
          ("category_type", .text "DynamicList"),
          ("sub_categories", .list
            [.object
              [("name", .text "city"),
               ("depends_on", .text "country"),
               ("category_type", .text "DynamicList"),
               ("mandatory", .bool false),
               ("numberOfValues", .number (.int (-1))),
               ("dynamic_subtype", .text "Dependent")]])]])]

end ReviewProtocol

end LiteratureReview
