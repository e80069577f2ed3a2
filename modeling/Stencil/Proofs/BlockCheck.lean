import Stencil.Proofs.BlockParser
import Stencil.Proofs.LineBreaks

/-!
# Whether blocks fit

Whether a template compiles, and with which fault it does not, is decided by its tags alone: by a
stack of frames that says of every open block where it begins, what closes it, and whether its last
branch has begun. The block reader keeps just this stack beside the actions (`Reading.step`). As a
tag that takes a line break remains the tag it is, trimming has no part in the faults.
-/

namespace Stencil.Template

/-! ## Frames -/

/-- What faults depend on in an open block. -/
structure Frame where
  start : Nat
  /-- The name of its opening tag. -/
  name : String
  /-- Whether the branch without a condition has begun. -/
  ended : Bool
  deriving DecidableEq, Repr

/-- The name of the tag that closes the block. -/
def Frame.closer (frame : Frame) : String := "end" ++ frame.name

/-- What a tag that ends a block or a part of one does to the innermost frame. -/
def Frame.checkTag (frame : Frame) (rest : List Frame) (start : Nat) (name : String)
    (arguments : List Char) : Except Error (List Frame) :=
  if name = frame.closer then .ok rest
  else if frame.name = "if" ∧ (name = "elif" ∨ name = "else") then
    if frame.ended then .error ⟨start, .elseNotLast⟩
    else if name = "elif" ∧ arguments.all Text.isBlank then
      .error ⟨start, .missingArguments name⟩
    else .ok ({ frame with ended := name = "else" } :: rest)
  else .error ⟨start, .mismatched frame.closer name⟩

/-- What a tag does to the frames. -/
def checkTag (frames : List Frame) (start : Nat) (name : String) (arguments : List Char) :
    Except Error (List Frame) :=
  if name ∈ openerNames then
    if name = "if" ∧ arguments.all Text.isBlank then .error ⟨start, .missingArguments name⟩
    else .ok (⟨start, name, false⟩ :: frames)
  else if name ∈ terminatorNames then
    match frames with
    | [] => .error ⟨start, .unexpectedClose name⟩
    | frame :: rest => frame.checkTag rest start name arguments
  else .ok frames

/-- What a piece does to the frames. What is no tag does nothing. -/
def check (frames : List Frame) (p : Piece) : Except Error (List Frame) :=
  match p.kind with
  | .tag name arguments => checkTag frames p.start name arguments
  | _ => .ok frames

/-- At the end no frame may be left. -/
def checkEnd : List Frame → Except Error Unit
  | [] => .ok ()
  | frame :: _ => .error ⟨frame.start, .unclosedBlock frame.name⟩

/-- Whether the blocks of pieces fit. -/
def checkAll (ps : List Piece) : Except Error Unit := ps.foldlM check [] >>= checkEnd

/-! ## The check of one piece -/

/-- A piece that stands alone leaves the frames as they are. -/
theorem check_alone {p : Piece} (h : p.Alone) (frames : List Frame) :
    check frames p = .ok frames := by
  unfold Piece.Alone at h
  rw [check]
  cases hkind : p.kind with
  | text | emit _ | comment _ => rfl
  | tag name arguments =>
    rw [hkind] at h
    exact (if_neg h.1).trans (if_neg h.2)

/-- A tag that opens a block with a single body adds a frame. -/
theorem check_open {p : Piece} {kind : PlainBlock} (h : p.Named kind.name) (frames : List Frame) :
    check frames p = .ok (⟨p.start, kind.name, false⟩ :: frames) := by
  obtain ⟨arguments, hkind⟩ := h
  rw [check, hkind]
  cases kind <;> rfl

/-- A tag that opens a conditional adds a frame if its condition is not blank. -/
theorem check_if {p : Piece} (h : p.Named "if") (frames : List Frame) :
    check frames p =
      if p.arguments.all Text.isBlank then .error ⟨p.start, .missingArguments "if"⟩
      else .ok (⟨p.start, "if", false⟩ :: frames) := by
  obtain ⟨arguments, hkind⟩ := h
  rw [check, Piece.arguments, hkind]
  simp [checkTag, openerNames]

/-- A tag that ends a block or a part of one needs a frame. -/
theorem check_terminator {p : Piece} {name : String} {arguments : List Char}
    (hkind : p.kind = .tag name arguments) (hname : name ∈ terminatorNames) (frames : List Frame) :
    check frames p =
      match frames with
      | [] => .error ⟨p.start, .unexpectedClose name⟩
      | frame :: rest => frame.checkTag rest p.start name arguments := by
  have hopen : name ∉ openerNames := by
    simp only [terminatorNames, List.mem_cons, List.not_mem_nil, or_false] at hname
    rcases hname with rfl | rfl | rfl | rfl | rfl <;> decide
  rw [check, hkind]
  exact (if_neg hopen).trans (if_pos hname)

/-! ## The frames of a reading -/

/-- Whether the last part of a block is being read. -/
def BlockPart.ended : BlockPart → Bool
  | .otherwise _ => true
  | _ => false

/-- An open block without what has been read of it. -/
def OpenBlock.frame (block : OpenBlock) : Frame :=
  ⟨block.start, block.part.opener, block.part.ended⟩

/-- The frames of all open blocks. -/
def Reading.frames (r : Reading) : List Frame := r.blocks.map OpenBlock.frame

/-- A condition is missing if and only if it is blank. -/
theorem condition_eq (name : String) (offset : Nat) (arguments : List Char) :
    condition name offset arguments =
      if arguments.all Text.isBlank then .error ⟨offset, .missingArguments name⟩
      else .ok (conditionTokens arguments) := by
  have hnil : conditionTokens arguments = [] ↔ arguments.all Text.isBlank = true := by
    rw [conditionTokens, List.map_eq_nil_iff, splitCondition, splitFrom_eq_nil_iff,
      List.all_eq_true]
  rw [condition, ← conditionTokens]
  split
  · rename_i heq
    rw [if_pos (hnil.1 heq)]
  · rename_i token rest heq
    have hgiven : ¬arguments.all Text.isBlank = true := fun hblank => by
      rw [hnil.2 hblank] at heq
      cases heq
    rw [if_neg hgiven, heq]

/-- A tag that ends a block or a part of one does to the innermost block what it does to its
frame. -/
theorem Reading.continueBlock_frames (draft : Draft) (block : OpenBlock) (rest : List OpenBlock)
    (p : Piece) {name : String} (hname : name ∈ terminatorNames) (arguments : List Char) :
    (continueBlock ⟨draft, block :: rest⟩ p name arguments block rest).map frames =
      block.frame.checkTag (rest.map OpenBlock.frame) p.start name arguments := by
  obtain ⟨start, part, around⟩ := block
  by_cases helif : name = "elif" ∧ ∃ earlier cond, part = .branch earlier cond
  · -- Only here something can be missing.
    obtain ⟨rfl, earlier, cond, rfl⟩ := helif
    have hstep : continueBlock ⟨draft, ⟨start, .branch earlier cond, around⟩ :: rest⟩ p "elif"
        arguments ⟨start, .branch earlier cond, around⟩ rest =
      condition "elif" p.start arguments >>= fun next =>
        .ok (nextPart ⟨draft, ⟨start, .branch earlier cond, around⟩ :: rest⟩ p
          ⟨start, .branch earlier cond, around⟩ rest
          (.branch (earlier ++ [.mk cond draft.body]) next)) := rfl
    have hcheck : (OpenBlock.frame ⟨start, .branch earlier cond, around⟩).checkTag
          (rest.map OpenBlock.frame) p.start "elif" arguments =
        if arguments.all Text.isBlank then .error ⟨p.start, .missingArguments "elif"⟩
        else .ok (⟨start, "if", false⟩ :: rest.map OpenBlock.frame) := by
      simp [Frame.checkTag, Frame.closer, OpenBlock.frame, BlockPart.opener, BlockPart.ended]
    rw [hstep, hcheck, condition_eq]
    split <;> rfl
  · -- Everything else is decided by the name and the part alone.
    simp only [terminatorNames, List.mem_cons, List.not_mem_nil, or_false] at hname
    rcases hname with rfl | rfl | rfl | rfl | rfl <;> cases part <;>
      first | rfl | exact absurd ⟨rfl, _, _, rfl⟩ helif

/-- Reading a piece does to the frames what the check of it does. -/
theorem Reading.step_frames (r : Reading) (p : Piece) :
    (r.step p).map frames = check r.frames p := by
  rcases p.alone_or_opens_or_terminates with halone | ⟨kind, hopen⟩ | hif |
    ⟨name, hname, arguments, hkind⟩
  · rw [step_alone halone, check_alone halone]
    rfl
  · rw [step_open hopen, check_open hopen]
    cases kind <;> rfl
  · have hstep : r.step p = condition "if" p.start p.arguments >>= fun cond =>
        .ok (r.openBlock p (.branch [] cond)) := by
      obtain ⟨arguments, hkind⟩ := hif
      rw [step, Piece.arguments, hkind]
      rfl
    rw [hstep, condition_eq, check_if hif]
    split <;> rfl
  · rw [check_terminator hkind hname]
    obtain ⟨draft, blocks⟩ := r
    cases blocks with
    | nil =>
      have hrole : ∀ name ∈ terminatorNames, (⟨draft, []⟩ : Reading).readTag p name arguments =
          .error ⟨p.start, .unexpectedClose name⟩ := by
        intro name hname
        simp only [terminatorNames, List.mem_cons, List.not_mem_nil, or_false] at hname
        rcases hname with rfl | rfl | rfl | rfl | rfl <;> rfl
      rw [step, hkind]
      exact congrArg (Except.map frames) (hrole name hname)
    | cons block rest =>
      rw [step_terminator hkind hname]
      exact continueBlock_frames draft block rest p hname arguments

/-- Reading pieces does to the frames what the checks of them do. -/
theorem Reading.run_frames (r : Reading) (ps : List Piece) :
    (r.run ps).map frames = ps.foldlM check r.frames := by
  induction ps generalizing r with
  | nil => rfl
  | cons p ps ih =>
    have hstep := r.step_frames p
    rw [List.foldlM_cons, ← hstep]
    cases hs : r.step p with
    | error e => simp [run, List.foldlM_cons, hs, bind, Except.bind, Except.map]
    | ok r₁ =>
      rw [run_cons hs, ih]
      rfl

/-- A list of pieces compiles if the check of it passes, and otherwise fails as the check does. -/
theorem ofPieces_check (ps : List Piece) : (ofPieces ps).map (fun _ => ()) = checkAll ps := by
  have hrun : (ps.foldlM Reading.step .empty).map Reading.frames = ps.foldlM check [] :=
    Reading.run_frames .empty ps
  rw [checkAll, ← hrun, ofPieces]
  cases ps.foldlM Reading.step .empty with
  | error e => rfl
  | ok r =>
    obtain ⟨draft, blocks⟩ := r
    cases blocks <;> rfl

/-! ## Trimming -/

theorem check_text {p : Piece} (h : p.kind = .text) (frames : List Frame) :
    check frames p = .ok frames := by
  rw [check, h]

/-- Plain text put before other pieces makes no difference. -/
theorem check_consText (offset : Nat) (text : List Char) (ps : List Piece) (frames : List Frame) :
    (consText offset text ps).foldlM check frames = ps.foldlM check frames := by
  rw [consText]
  split <;> rfl

/-- Nor does it how much of the plain text behind a piece is part of the piece. -/
theorem check_cons_consText (p : Piece) {q : Piece} (hq : q.kind = .text) {ps taken : List Piece}
    (hps : ∀ frames, taken.foldlM check frames = ps.foldlM check frames) (source : List Char)
    (offset : Nat) (text : List Char) (frames : List Frame) :
    ({ p with source := source } :: consText offset text taken).foldlM check frames =
      (p :: q :: ps).foldlM check frames := by
  rw [List.foldlM_cons, List.foldlM_cons]
  refine congrArg (check frames p >>= ·) (funext fun inner => ?_)
  rw [check_consText, hps, List.foldlM_cons, check_text hq]
  rfl

/-- The checks of pieces do not depend on whether tags take line breaks. -/
theorem check_takeLineBreaks (ps : List Piece) (frames : List Frame) :
    (takeLineBreaks ps).foldlM check frames = ps.foldlM check frames := by
  fun_induction takeLineBreaks ps generalizing frames with
  | case1 => rfl
  | case2 p => rfl
  | case3 p q ps name arguments text hsource hq hp ih
  | case4 p q ps name arguments text hsource hq hp ih =>
    exact check_cons_consText p hq ih _ _ text frames
  | case5 p q ps hnewline hboth ih =>
    rw [List.foldlM_cons, List.foldlM_cons]
    exact congrArg (check frames p >>= ·) (funext fun inner => ih inner)

/-- A template compiles if the check of its pieces passes. -/
theorem compile_check (trim : Bool) (template : String) :
    (compile trim template).map (fun _ => ()) = pieces trim template >>= checkAll := by
  rw [compile]
  cases pieces trim template with
  | error e => rfl
  | ok ps => exact ofPieces_check ps

/-- Whether a template compiles, and with which fault at which place it does not, does not depend on
trimming. -/
theorem compile_trim (trim : Bool) (template : String) :
    (compile trim template).map (fun _ => ()) = (compile false template).map (fun _ => ()) := by
  cases trim with
  | false => rfl
  | true =>
    rw [compile_check, compile_check, pieces_trim]
    cases pieces false template with
    | error e => rfl
    | ok ps => exact congrArg (· >>= checkEnd) (check_takeLineBreaks ps [])

/-- A fault is the same at the same place whether or not tags take line breaks. -/
theorem compile_error_trim {trim : Bool} {template : String} {e : Error}
    (h : compile trim template = .error e) (trim' : Bool) : compile trim' template = .error e := by
  have hall := (compile_trim trim' template).trans (compile_trim trim template).symm
  rw [h] at hall
  cases hc : compile trim' template with
  | ok actions => rw [hc] at hall; cases hall
  | error e' =>
    rw [hc] at hall
    exact congrArg Except.error (Except.error.inj hall)

end Stencil.Template
