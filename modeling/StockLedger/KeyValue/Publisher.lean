import StockLedger.Calls.Publisher
import StockLedger.KeyValue.Client
import StockLedger.Wire.Release

/-!
# Announcing over a key-value server

* `RemotePublisher.envelope` : a notice as it is announced;
* `RemotePublisher.client`, `announce` : announcing it on a channel.

Nobody has to listen: how many did is not looked at.
-/

namespace StockLedger

/-- The refusal of a notice that a trouble leads to. -/
def KeyValue.Trouble.publishFault (t : Trouble) : PublishFault :=
  .transport t.text

namespace RemotePublisher

open KeyValue

/-- A notice with the name under which it is announced. -/
def envelope (n : StockRelease) : Json :=
  .obj [("event_type", .str StockRelease.eventType), ("payload", n.json)]

/-- Announces a notice on a channel. -/
def client (channel : String) (n : StockRelease) : Client (Except PublishFault Unit) :=
  .single (.publish channel (envelope n).print) fun r =>
    (r.count.map fun _ => ()).mapError Trouble.publishFault

/-- Announces a notice on a channel of a host. -/
def announce (h : Host) (address channel : String) (n : StockRelease) :
    Option (Except PublishFault Unit) × List Command :=
  h.serve address (fun t => .error t.publishFault) (client channel n)

end RemotePublisher
end StockLedger
