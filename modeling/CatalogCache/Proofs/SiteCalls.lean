import CatalogCache.Client
import CatalogCache.Proofs.Actions
import CatalogCache.Proofs.Results

/-!
# Calls of a site

Every operation of a site sends one request and reads one reply. Whether the reply is an error is
decided by its status, before its body is read.
-/

namespace CatalogCache

namespace World

theorem sent_logged (w : World) (lines : List LogLine) : (w.logged lines).sent = w.sent := by
  unfold World.sent World.logged
  rw [List.filterMap_append, List.append_right_eq_self, List.filterMap_eq_nil_iff]
  intro e he
  obtain ⟨line, -, rfl⟩ := List.mem_map.mp he
  rfl

end World

namespace Site

/-- Where the request for an operation goes. -/
def address (site : Site) : Request → Value
  | .collection c => .text (site.url (catalogPath c))
  | .item _ uri => uri
  | .linkTypes => .text (site.url "/issueLinkType")
  | .fields => .text (site.url "/field")
  | .serverInfo => .text (site.url "/serverInfo")

/-- What an operation makes of the document in a reply. -/
def parse : Request → Json → Except Failure Value
  | .collection c => records (catalogPath c) (Payload.build c.entryClass) none
  | .item c _ => Payload.build c.entryClass
  | .linkTypes => records "/issueLinkType" (Payload.build .issueLinkType) (some "issueLinkTypes")
  | .fields => records "/field" (Payload.build .field) none
  | .serverInfo => Payload.build .serverInfo

/-- What a request leaves in the trace. -/
def requesting (uri : Value) : List Event :=
  [.log ⟨.debug, .site, List.flatten ["GET ", uri.display]⟩, .sent uri .null]

theorem answer_eq (site : Site) (q : Request) :
    site.answer q = (do
      let j ← fetch (site.address q) .null
      Action.ofExcept (parse q j)) := by
  cases q <;> rfl

theorem exec_send (uri params : Value) (w : World) :
    (Action.send uri params).exec w = (w.server w.sent uri, w.record (.sent uri params)) := by
  show (Action.ofExcept (w.server w.sent uri)).exec (w.record (.sent uri params)) = _
  rw [Action.exec_ofExcept]

theorem exec_fetch (uri : Value) (w : World) :
    (fetch uri .null).exec w =
      (w.server w.sent uri >>= accept, w.after w.disk (requesting uri)) := by
  have hafter : ((w.logged [⟨.debug, .site, List.flatten ["GET ", uri.display]⟩]).record
      (.sent uri .null)) = w.after w.disk (requesting uri) := by
    simp [World.record, World.logged, World.after, requesting]
  have hserver : ∀ lines, (w.logged lines).server = w.server := fun _ => rfl
  rw [fetch, Action.exec_bind_ok (Action.exec_log ..), Action.exec_bind, exec_send,
    World.sent_logged, hserver, hafter]
  cases w.server w.sent uri with
  | error e => rfl
  | ok reply => exact Action.exec_ofExcept ..

theorem exec_answer (site : Site) (q : Request) (w : World) :
    ((Client.site site).answer q).exec w =
      (.value <$> (w.server w.sent (site.address q) >>= accept >>= parse q),
        w.after w.disk (requesting (site.address q))) := by
  show (Answer.value <$> site.answer q).exec w = _
  rw [Action.exec_map, answer_eq, Action.exec_bind, exec_fetch]
  cases w.server w.sent (site.address q) >>= accept with
  | error e => rfl
  | ok j =>
    dsimp only
    rw [Action.exec_ofExcept]
    rfl

end Site

end CatalogCache
