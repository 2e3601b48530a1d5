import ComponentsNetwork.HTTP.ClientTheorems
/-!
# Downloads

`downloadFile` writes the body of a response to the file one buffer after
another. `download_iff` says when it is all or nothing: the file is emptied as
soon as it is open, whatever the status of the response, and no write is
looked at again.
-/

namespace ComponentsNetwork.HTTP.Client

open Buffers

/-! ## The file -/

/-- A buffer of the body, and how many of its octets the file takes; octets
lost when the file is closed are not taken. -/
structure Piece where
  octets : Bytes
  taken : Nat
deriving DecidableEq

/-- The write of the buffer does not fail. -/
def Piece.Complete (p : Piece) : Prop := p.octets.length ≤ p.taken

instance (p : Piece) : Decidable p.Complete := inferInstanceAs (Decidable (_ ≤ _))

/-- The buffers of a body. -/
structure Pieces (body : Bytes) where
  list : List Piece
  whole : (list.map (·.octets)).flatten = body

/-- `saveFile`, opened with `trunc`; `good` until a write fails. -/
structure Ofstream where
  content : Bytes := []
  good : Bool := true

def Ofstream.write (f : Ofstream) (chunk : Piece) : Ofstream :=
  if f.good then { content := f.content ++ chunk.octets.take chunk.taken, good := decide chunk.Complete } else f

/-- The file at `saveFilePath`: what it holds before the call, whether it can
be opened, and what the loop over the body's buffers leaves. -/
def saveFile (content : Option Bytes) (opens : Bool) {body : Bytes} (chunks : Pieces body) : SaveFile :=
  { content, opens, keeps := fun _ => (chunks.list.foldl Ofstream.write {}).content }

/-- The octets up to the first write that fails. -/
def takenOf : List Piece → Bytes
  | [] => []
  | p :: ps => if p.Complete then p.octets ++ takenOf ps else p.octets.take p.taken

theorem foldl_write (ps : List Piece) (f : Ofstream) :
    (ps.foldl Ofstream.write f).content = if f.good then f.content ++ takenOf ps else f.content := by
  induction ps generalizing f with
  | nil => simp [takenOf]
  | cons p ps ih =>
    rw [List.foldl_cons, ih]
    unfold Ofstream.write
    by_cases hgood : f.good = true
    · rw [if_pos hgood, if_pos hgood, takenOf]
      by_cases hp : p.Complete
      · rw [if_pos hp, List.take_of_length_le hp, List.append_assoc]
        simp [hp]
      · rw [if_neg hp]
        simp [hp]
    · rw [if_neg hgood, if_neg hgood, if_neg hgood]

/-- What is taken is the body if no write fails. -/
theorem takenOf_eq_iff (ps : List Piece) : takenOf ps = (ps.map (·.octets)).flatten ↔ ∀ p ∈ ps, p.Complete := by
  induction ps with
  | nil => simp [takenOf]
  | cons p ps ih =>
    rw [takenOf, List.map_cons, List.flatten_cons, List.forall_mem_cons]
    by_cases hp : p.Complete
    · rw [if_pos hp, List.append_cancel_left_eq, ih, and_iff_right hp]
    · rw [if_neg hp]
      refine iff_of_false (fun heq => hp ?_) fun h => hp h.1
      have hlen := congrArg List.length heq
      rw [List.length_take, List.length_append] at hlen
      unfold Piece.Complete
      omega

/-! ## The call -/

/-- Either the call returns true, the status is 200 and the file holds the
body, or it returns false or throws, and the file is as it was. -/
def AllOrNothing (content : Option Bytes) (res : Response) (result : Outcome Bool) (after : Option Bytes) : Prop :=
  if result = .returns true then res.result = 200 ∧ after = some res.body.octets else after = content

/-- The call comes to writing the file: it connects, the write and the read
succeed, and the file opens. -/
def Saves (c : Client) (file : SaveFile) (a : Attempt) (x : Exchange) : Prop :=
  Connects c a ∧ x.write = true ∧ x.read = true ∧ file.opens = true

theorem downloadFile_cases (c : Client) (target : String) (file : SaveFile) (a : Attempt) (x : Exchange) :
    (Saves c file a x ∧ (c.downloadFile target file a x).1 = .returns (x.res.result = 200) ∧
        (c.downloadFile target file a x).2.1 = some (file.keeps x.res.body.octets)) ∨
      (¬ Saves c file a x ∧ (c.downloadFile target file a x).1 ≠ .returns true ∧
        (c.downloadFile target file a x).2.1 = file.content) := by
  unfold Saves
  rw [← connectToHost_true_iff]
  unfold downloadFile
  dsimp only
  rcases c.connectToHost a with ⟨⟨_ | _⟩ | _, c'⟩
  · simp
  · rcases x.write
    · simp
    · rcases x.read
      · simp
      · rcases file.opens
        · simp
        · simp
  · simp

/-- A download is all or nothing if and only if, where it comes to writing the
file, every write takes its whole buffer, if the status is 200, and what is
taken is what the file held before, if it is not. -/
theorem download_iff (c : Client) (target : String) (content : Option Bytes) (opens : Bool) (a : Attempt) (x : Exchange)
    (chunks : Pieces x.res.body.octets) :
    AllOrNothing content x.res (c.downloadFile target (saveFile content opens chunks) a x).1
        (c.downloadFile target (saveFile content opens chunks) a x).2.1 ↔
      (Saves c (saveFile content opens chunks) a x →
        if x.res.result = 200 then ∀ p ∈ chunks.list, p.Complete else content = some (takenOf chunks.list)) := by
  have hkeeps : (saveFile content opens chunks).keeps x.res.body.octets = takenOf chunks.list := by
    show (chunks.list.foldl Ofstream.write {}).content = _
    rw [foldl_write]
    simp
  unfold AllOrNothing
  rcases downloadFile_cases c target (saveFile content opens chunks) a x with ⟨hsaves, hresult, hafter⟩ |
    ⟨hsaves, hresult, hafter⟩
  · rw [hresult, hafter, hkeeps, ← takenOf_eq_iff, chunks.whole]
    by_cases hstatus : x.res.result = 200
    · simp [hsaves, hstatus]
    · simp [hsaves, hstatus, eq_comm]
  · rw [if_neg hresult, hafter]
    exact iff_of_true rfl fun h => absurd h hsaves

/-- A 404 without a body. -/
def notFound : Exchange := { res := { result := 404 } }

def overOld : SaveFile := saveFile (some (octets "old")) true (⟨[], rfl⟩ : Pieces notFound.res.body.octets)

/-- The call returns false and the file is empty. -/
theorem not_found_empties_file :
    (downloadFile { secure := false } "/file" overOld { resolved := some (⟨"10.0.0.1", 80⟩, []) } notFound).1 =
        .returns false ∧
      (downloadFile { secure := false } "/file" overOld { resolved := some (⟨"10.0.0.1", 80⟩, []) } notFound).2.1 =
        some [] ∧
      ¬ AllOrNothing (some (octets "old")) notFound.res
        (downloadFile { secure := false } "/file" overOld { resolved := some (⟨"10.0.0.1", 80⟩, []) } notFound).1
        (downloadFile { secure := false } "/file" overOld { resolved := some (⟨"10.0.0.1", 80⟩, []) } notFound).2.1 := by
  refine ⟨rfl, rfl, fun hsame => ?_⟩
  have hempty : some [] = some (octets "old") := hsame
  exact absurd hempty (by decide)

end ComponentsNetwork.HTTP.Client
