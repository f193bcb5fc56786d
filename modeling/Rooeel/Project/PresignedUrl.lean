import Rooeel.Project.Operations
import Mathlib.Data.List.Chain

/-!
# The display name of a work order in a header

`uploadWorkOrder` makes the display name of a work order from a name that the admin gives or from
the name of the file, and `getPresignedUrl` puts it between quotes into a header of the response.
What is left of the name when it is sanitized is a `CleanName`, whatever it was, so it can end
neither the quotes nor the header.
-/

namespace Rooeel

open JavaScript Prog

/-! ## Signing -/

/-- A request for an object, with two headers of the response. -/
structure GetObjectCommand where
  bucket : String
  key : String
  responseContentType : String
  responseContentDisposition : String

/-- The bucket of the storage service, and the package that signs requests. -/
class StorageRuntime where
  bucketName : String
  getSignedUrl : GetObjectCommand → Nat → Except Exn String

/-- `fileKey.split('/').pop()` -/
def lastSegment (fileKey : String) : String :=
  String.ofList (fileKey.toList.reverse.takeWhile fun c => c != '/').reverse

/-- The name under which the file is shown. -/
def shownName (fileKey : String) (fileName : Option String) : String :=
  match fileName.filter fun name => name ≠ "" with
  | some name => name
  | none => if lastSegment fileKey = "" then "document.pdf" else lastSegment fileKey

def contentDisposition (fileKey : String) (fileName : Option String) : String :=
  "inline; filename=\"" ++ shownName fileKey fileName ++ "\""

def getPresignedUrl [StorageRuntime] (fileKey : String) (fileName : Option String) :
    Service String :=
  Prog.read fun _ => StorageRuntime.getSignedUrl
    { bucket := StorageRuntime.bucketName
      key := fileKey
      responseContentType := "application/pdf"
      responseContentDisposition := contentDisposition fileKey fileName } 900

/-! ## Sanitizing -/

/-- The characters that `replace(/[^\w\s-]/g, '')` leaves. -/
def isKept (c : Char) : Bool := isWordChar c || isSpace c || c == '-'

/-- `uploadWorkOrder` makes a name safe. -/
def sanitize (given : String) : String :=
  let safe := trim (String.ofList (collapseSpaces ((trim given).toList.filter isKept)))
  if safe = "" then "Work Order" else safe

/-- The name that is given, or the name of the file without its extension. -/
def givenName (name : Option String) (originalname : String) : String :=
  match name with
  | some n => if n = "" then dropPdfSuffix originalname else n
  | none => dropPdfSuffix originalname

theorem displayName_eq (name : Option String) (originalname datePart : String) :
    displayName name originalname datePart =
      sanitize (givenName name originalname) ++ " - " ++ datePart ++ ".pdf" := by
  cases name <;> rfl

/-- A name of words with single spaces between them. -/
structure CleanName (base : String) : Prop where
  nonempty : base ≠ ""
  chars : ∀ c ∈ base.toList, c.isAlphanum = true ∨ c = '_' ∨ c = '-' ∨ c = ' '
  first : base.toList.head? ≠ some ' '
  last : base.toList.getLast? ≠ some ' '
  spaced : ¬ [' ', ' '] <:+: base.toList

theorem wordChar_not_space {c : Char} (h : isWordChar c = true) : isSpace c = false := by
  rcases Bool.or_eq_true_iff.mp h with hAlpha | hLow
  · refine Bool.eq_false_iff.mpr fun hSpace => ?_
    delta Char.isAlphanum Char.isAlpha Char.isUpper Char.isLower Char.isDigit at hAlpha
    simp only [Bool.or_eq_true, Bool.and_eq_true, decide_eq_true_eq, UInt32.le_iff_toNat_le,
      ge_iff_le] at hAlpha
    simp only [isSpace, Bool.or_eq_true, Bool.and_eq_true, decide_eq_true_eq, beq_iff_eq] at hSpace
    have hVal : c.toNat = c.val.toNat := rfl
    have hA : 'A'.val.toNat = 65 := rfl
    have ha : 'a'.val.toNat = 97 := rfl
    have hZ : 'Z'.val.toNat = 90 := rfl
    have hz : 'z'.val.toNat = 122 := rfl
    have hNine : '9'.val.toNat = 57 := rfl
    have hZero : '0'.val.toNat = 48 := rfl
    omega
  · rw [beq_iff_eq.mp hLow]
    rfl

/-- A character that is not removed and is not white space. -/
theorem nameChar_of_kept {c : Char} (hKept : isKept c = true) (hSpace : isSpace c = false) :
    c.isAlphanum = true ∨ c = '_' ∨ c = '-' ∨ c = ' ' := by
  simp only [isKept, isWordChar, hSpace, Bool.or_false, Bool.or_eq_true, beq_iff_eq] at hKept
  rcases hKept with (hAlpha | hLow) | hDash
  · exact Or.inl hAlpha
  · exact Or.inr (Or.inl hLow)
  · exact Or.inr (Or.inr (Or.inl hDash))

section Collapse

variable {c d : Char}

theorem collapseSpaces_cons (h : isSpace c = false) (rest : List Char) :
    collapseSpaces (c :: rest) = c :: collapseSpaces rest := by
  change (if isSpace c = true then _ else c :: collapseSpaces rest) = _
  rw [h]
  rfl

theorem collapseSpaces_last (h : isSpace c = true) : collapseSpaces [c] = [' '] := by
  change (if isSpace c = true then [' '] else _) = _
  rw [h]
  rfl

/-- White space before white space is dropped, the last of it becomes a space. -/
theorem collapseSpaces_space (h : isSpace c = true) (rest : List Char) :
    collapseSpaces (c :: d :: rest) =
      if isSpace d = true then collapseSpaces (d :: rest)
      else ' ' :: collapseSpaces (d :: rest) := by
  change (if isSpace c = true then
    (if isSpace d = true then collapseSpaces (d :: rest) else ' ' :: collapseSpaces (d :: rest))
    else _) = _
  rw [h]
  rfl

/-- White space becomes spaces. -/
theorem mem_collapseSpaces {cs : List Char} (h : c ∈ collapseSpaces cs) :
    c = ' ' ∨ c ∈ cs ∧ isSpace c = false := by
  induction cs with
  | nil => cases h
  | cons d rest ih =>
      have hRest (hc : c ∈ collapseSpaces rest) : c = ' ' ∨ c ∈ d :: rest ∧ isSpace c = false :=
        (ih hc).imp id fun hOld => ⟨List.mem_cons_of_mem _ hOld.1, hOld.2⟩
      cases hSpace : isSpace d with
      | true =>
          cases rest with
          | nil =>
              rw [collapseSpaces_last hSpace] at h
              exact Or.inl (List.mem_singleton.mp h)
          | cons next rest =>
              rw [collapseSpaces_space hSpace] at h
              split at h
              · exact hRest h
              · exact (List.mem_cons.mp h).elim Or.inl hRest
      | false =>
          rw [collapseSpaces_cons hSpace] at h
          rcases List.mem_cons.mp h with hSame | hOld
          · rw [hSame]
            exact Or.inr ⟨List.mem_cons_self, hSpace⟩
          · exact hRest hOld

/-- No two spaces are left next to each other. -/
theorem collapseSpaces_chain (cs : List Char) :
    (collapseSpaces cs).IsChain fun a b => a = ' ' → b ≠ ' ' := by
  induction cs with
  | nil => exact List.IsChain.nil
  | cons c rest ih =>
      cases hSpace : isSpace c with
      | true =>
          cases rest with
          | nil =>
              rw [collapseSpaces_last hSpace]
              exact List.IsChain.singleton _
          | cons next rest =>
              rw [collapseSpaces_space hSpace]
              split
              · exact ih
              · rename_i hNext
                rw [collapseSpaces_cons (Bool.not_eq_true _ ▸ hNext)] at ih ⊢
                refine List.isChain_cons_cons.mpr ⟨fun _ hSame => hNext ?_, ih⟩
                rw [hSame]
                rfl
      | false =>
          rw [collapseSpaces_cons hSpace]
          refine List.isChain_cons.mpr ⟨fun _ _ hSame => ?_, ih⟩
          rw [hSame] at hSpace
          cases hSpace

/-- Single spaces stay. -/
theorem collapseSpaces_eq_self {cs : List Char} (hSpaces : ∀ c ∈ cs, isSpace c = true → c = ' ')
    (hChain : cs.IsChain fun a b => a = ' ' → b ≠ ' ') : collapseSpaces cs = cs := by
  induction cs with
  | nil => rfl
  | cons c rest ih =>
      have hRest := ih (fun d hd => hSpaces d (List.mem_cons_of_mem _ hd)) hChain.of_cons
      cases hSpace : isSpace c with
      | true =>
          have hBlank : c = ' ' := hSpaces c List.mem_cons_self hSpace
          cases rest with
          | nil => rw [collapseSpaces_last hSpace, hBlank]
          | cons d rest =>
              have hNext : ¬ isSpace d = true := by
                intro hSpace'
                have hSame := hSpaces d (List.mem_cons_of_mem _ List.mem_cons_self) hSpace'
                exact (List.isChain_cons_cons.mp hChain).1 hBlank hSame
              rw [collapseSpaces_space hSpace, if_neg hNext, hRest, hBlank]
      | false => rw [collapseSpaces_cons hSpace, hRest]

end Collapse

theorem not_doubled_of_chain {cs : List Char} (h : cs.IsChain fun a b => a = ' ' → b ≠ ' ') :
    ¬ [' ', ' '] <:+: cs := by
  intro hInfix
  have hDouble := List.IsChain.infix h hInfix
  exact (List.isChain_cons_cons.mp hDouble).1 rfl rfl

theorem chain_of_not_doubled {cs : List Char} (h : ¬ [' ', ' '] <:+: cs) :
    cs.IsChain fun a b => a = ' ' → b ≠ ' ' := by
  refine (List.isChain_isInfix cs).imp fun a b hInfix ha hb => h ?_
  rwa [ha, hb] at hInfix

/-! ## Clean names -/

theorem cleanName_default : CleanName "Work Order" := by
  refine ⟨by decide, by simp, by simp, by simp, ?_⟩
  exact not_doubled_of_chain (by simp)

/-- Whatever the given name is, the sanitized one is clean. -/
theorem cleanName_sanitize (given : String) : CleanName (sanitize given) := by
  let collapsed := collapseSpaces ((trim given).toList.filter isKept)
  have hSafe : sanitize given =
      if trim (String.ofList collapsed) = "" then "Work Order"
      else trim (String.ofList collapsed) := rfl
  have hList : (trim (String.ofList collapsed)).toList = trimList collapsed := by
    rw [trim, String.toList_ofList, String.toList_ofList]
  have hTrimmed := trimmed_trimList collapsed
  rw [hSafe]
  split
  · exact cleanName_default
  · rename_i hNonempty
    refine ⟨hNonempty, ?_, ?_, ?_, ?_⟩
    · rw [hList]
      intro c hc
      rcases mem_collapseSpaces ((trimList_within collapsed).subset hc) with hBlank | ⟨hOld, hSpace⟩
      · exact Or.inr (Or.inr (Or.inr hBlank))
      · exact nameChar_of_kept (List.mem_filter.mp hOld).2 hSpace
    · rw [hList]
      intro hFirst
      obtain ⟨rest, hCons⟩ := List.head?_eq_some_iff.mp hFirst
      exact Bool.noConfusion (hTrimmed.first ' ' rest hCons)
    · rw [hList]
      intro hLast
      rw [← List.head?_reverse] at hLast
      obtain ⟨rest, hCons⟩ := List.head?_eq_some_iff.mp hLast
      exact Bool.noConfusion (hTrimmed.last ' ' rest hCons)
    · rw [hList]
      have hChain := List.IsChain.infix (collapseSpaces_chain _) (trimList_within collapsed)
      exact not_doubled_of_chain hChain

namespace CleanName

variable {base : String}

theorem kept (h : CleanName base) : ∀ c ∈ base.toList, isKept c = true := by
  intro c hc
  rcases h.chars c hc with hAlpha | rfl | rfl | rfl
  · simp [isKept, isWordChar, hAlpha]
  · rfl
  · rfl
  · rfl

theorem spaces (h : CleanName base) : ∀ c ∈ base.toList, isSpace c = true → c = ' ' := by
  intro c hc hSpace
  rcases h.chars c hc with hAlpha | rfl | rfl | rfl
  · have hWord : isWordChar c = true := by simp [isWordChar, hAlpha]
    rw [wordChar_not_space hWord] at hSpace
    cases hSpace
  · cases hSpace
  · cases hSpace
  · rfl

theorem trimmed (h : CleanName base) : Trimmed base.toList where
  first := by
    intro c rest hCons
    refine Bool.eq_false_iff.mpr fun hSpace => h.first ?_
    rw [← h.spaces c (hCons ▸ List.mem_cons_self) hSpace, hCons]
    rfl
  last := by
    intro c rest hCons
    refine Bool.eq_false_iff.mpr fun hSpace => h.last ?_
    have hMem : c ∈ base.toList := List.mem_reverse.mp (hCons ▸ List.mem_cons_self)
    rw [← h.spaces c hMem hSpace, ← List.head?_reverse, hCons]
    rfl

/-- A clean name is what is left of it. -/
theorem sanitize_eq (h : CleanName base) : sanitize base = base := by
  have hTrim : trim base = base := by
    rw [trim, trimList_of_trimmed h.trimmed, String.ofList_toList]
  have hFilter : base.toList.filter isKept = base.toList := List.filter_eq_self.mpr h.kept
  have hCollapse : collapseSpaces base.toList = base.toList :=
    collapseSpaces_eq_self h.spaces (chain_of_not_doubled h.spaced)
  unfold sanitize
  rw [hTrim, hFilter, hCollapse, String.ofList_toList, hTrim]
  exact if_neg h.nonempty

end CleanName

/-! ## The header -/

/-- A character that ends neither a quoted string nor a line. -/
def IsPlain (c : Char) : Prop := c ≠ '"' ∧ isLineTerminator c = false

theorem isPlain_of_word {c : Char} (h : isWordChar c = true) : IsPlain c := by
  constructor
  · rintro rfl
    cases h
  · refine Bool.eq_false_iff.mpr fun hEnd => ?_
    have hSpace : isSpace c = true := by
      simp only [isLineTerminator, Bool.or_eq_true, beq_iff_eq] at hEnd
      simp only [isSpace, Bool.or_eq_true, Bool.and_eq_true, decide_eq_true_eq, beq_iff_eq]
      omega
    rw [wordChar_not_space h] at hSpace
    cases hSpace

theorem CleanName.plain {base : String} (h : CleanName base) : ∀ c ∈ base.toList, IsPlain c := by
  intro c hc
  rcases h.chars c hc with hAlpha | rfl | rfl | rfl
  · exact isPlain_of_word (by simp [isWordChar, hAlpha])
  · exact ⟨by decide, rfl⟩
  · exact ⟨by decide, rfl⟩
  · exact ⟨by decide, rfl⟩

theorem isoDate_plain (now : Int) : ∀ c ∈ (isoDate now).toList, IsPlain c := by
  intro c hc
  rcases isoDate_chars now c hc with hDigit | rfl | rfl
  · exact isPlain_of_word (by simp [isWordChar, Char.isAlphanum, hDigit])
  · exact ⟨by decide, rfl⟩
  · exact ⟨by decide, rfl⟩

/-- The display name of a work order is plain. -/
theorem displayed_plain {base : String} (h : CleanName base) (now : Int) :
    ∀ c ∈ (base ++ " - " ++ isoDate now ++ ".pdf").toList, IsPlain c := by
  have hDash : ∀ c ∈ " - ".toList, IsPlain c := by
    simp [IsPlain, isLineTerminator]
  have hSuffix : ∀ c ∈ ".pdf".toList, IsPlain c := by
    simp [IsPlain, isLineTerminator]
  intro c hc
  simp only [String.toList_append, List.mem_append] at hc
  rcases hc with ((hBase | hMiddle) | hDate) | hEnd
  · exact h.plain c hBase
  · exact hDash c hMiddle
  · exact isoDate_plain now c hDate
  · exact hSuffix c hEnd

/-- A header with a plain name has the quotes around the name, and is one line. -/
theorem contentDisposition_plain (fileKey : String) {fileName : String} (hNonempty : fileName ≠ "")
    (hPlain : ∀ c ∈ fileName.toList, IsPlain c) :
    (contentDisposition fileKey (some fileName)).toList.count '"' = 2 ∧
      ∀ c ∈ (contentDisposition fileKey (some fileName)).toList, isLineTerminator c = false := by
  have hShown : shownName fileKey (some fileName) = fileName := by
    simp [shownName, Option.filter, hNonempty]
  have hNone : fileName.toList.count '"' = 0 :=
    List.count_eq_zero_of_not_mem fun hc => (hPlain _ hc).1 rfl
  have hOpen : "inline; filename=\"".toList.count '"' = 1 := by simp
  have hClose : "\"".toList.count '"' = 1 := by simp
  have hFront : ∀ c ∈ "inline; filename=\"".toList, isLineTerminator c = false := by
    simp [isLineTerminator]
  have hBack : ∀ c ∈ "\"".toList, isLineTerminator c = false := by simp [isLineTerminator]
  have hHeader : (contentDisposition fileKey (some fileName)).toList =
      "inline; filename=\"".toList ++ fileName.toList ++ "\"".toList := by
    unfold contentDisposition
    rw [hShown]
    simp only [String.toList_append]
  rw [hHeader]
  constructor
  · rw [List.count_append, List.count_append, hOpen, hNone, hClose]
  · intro c hc
    rcases List.mem_append.mp hc with hc | hEnd
    · rcases List.mem_append.mp hc with hStart | hName
      · exact hFront c hStart
      · exact (hPlain c hName).2
    · exact hBack c hEnd

/-- **Display names cannot break the header.** The name of an uploaded work order is a clean name
with the date behind it, whatever name was given; the header that `getPresignedUrl` makes from it
is one line with two quotes, and sanitizing the clean name again does not change it. -/
theorem work_order_header [Runtime] {s s' : Store} {projectId adminId : Id}
    {fileKey originalname : String} {name : Option String} {now : Int} {row : WorkOrderPdf}
    (hRun : (uploadWorkOrder projectId adminId ⟨fileKey, originalname, name, isoDate now⟩).run s =
      (.ok row, s')) :
    row ∈ s'.workOrderPdf.rows ∧ ∃ base, row.fileName = base ++ " - " ++ isoDate now ++ ".pdf" ∧
      CleanName base ∧ sanitize base = base ∧
      (contentDisposition row.fileKey (some row.fileName)).toList.count '"' = 2 ∧
      ∀ c ∈ (contentDisposition row.fileKey (some row.fileName)).toList,
        isLineTerminator c = false := by
  obtain ⟨project, s₁, -, hRest⟩ := of_run_bind_ok hRun
  obtain ⟨_, s₂, -, hCreate⟩ := of_run_bind_ok hRest
  obtain ⟨rfl, -, rfl⟩ := Model.create_ok (of_execute_run hCreate)
  refine ⟨List.mem_append_right _ (List.mem_singleton_self _), ?_⟩
  have hClean := cleanName_sanitize (givenName name originalname)
  refine ⟨_, displayName_eq _ _ _, hClean, hClean.sanitize_eq, ?_⟩
  refine contentDisposition_plain _ ?_ ?_
  · rw [displayName_eq]
    intro hEmpty
    have hBase := congrArg String.toList hEmpty
    simp at hBase
  · rw [displayName_eq]
    exact displayed_plain hClean now

section Site

attribute [local instance] asciiRuntime

/-- A quote and a line break are removed, and the spaces around the quote become one. -/
example : displayName (some " North \" wing\n") "scan.pdf" (isoDate 0) =
    "North wing - 1970-01-01.pdf" := by decide

/-- A file whose name has no letter. -/
theorem work_order_header_site :
    ∃ row, ((uploadWorkOrder 1 1 ⟨"work-orders/1.pdf", "\"\".pdf", none, isoDate 0⟩).run site).1 =
        .ok row ∧
      ∃ base, row.fileName = base ++ " - " ++ isoDate 0 ++ ".pdf" ∧ CleanName base := by
  have hRun : (uploadWorkOrder 1 1 ⟨"work-orders/1.pdf", "\"\".pdf", none, isoDate 0⟩).run site =
    (.ok _, _) := rfl
  obtain ⟨-, base, hName, hClean, -⟩ := work_order_header hRun
  exact ⟨_, rfl, base, hName, hClean⟩

end Site

end Rooeel
