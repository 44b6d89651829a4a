import BusTester.Application.SendMessageWithReply

/-!
# The messages endpoint

`MessagesController` hands the fields of a request on to the use cases under other names, and
`SendMessageUseCase` builds the message that it sends.
-/

namespace BusTester

/-- `SendMessageRequest`. -/
structure SendMessageRequest where
  exchange : Option Utf16
  routingKey : Option Utf16
  payload : Option Utf16
  replyTo : Option Utf16
  correlationId : Option Utf16
  headers : Option StringMap
deriving DecidableEq

/-- `SendMessageWithReplyRequest`. -/
structure SendMessageWithReplyRequest where
  exchange : Option Utf16
  routingKey : Option Utf16
  payload : Option Utf16
  correlationId : Option Utf16
  headers : Option StringMap
deriving DecidableEq

/-- `SendMessageCommand`. -/
structure SendMessageCommand where
  target : Option Utf16
  routingKey : Option Utf16
  payload : Option Utf16
  replyTo : Option Utf16
  correlationId : Option Utf16
  headers : Option StringMap

/-- The message that `SendMessageUseCase.HandleAsync` passes to `SendAsync`. -/
def SendMessageUseCase.message (command : SendMessageCommand) : Except BusException BusMessage :=
  BusMessage.create command.target command.routingKey command.payload command.replyTo
    command.correlationId command.headers

namespace MessagesController

/-- The command of `Send`. -/
def send (request : SendMessageRequest) : SendMessageCommand where
  target := request.exchange
  routingKey := request.routingKey
  payload := request.payload
  replyTo := request.replyTo
  correlationId := request.correlationId
  headers := request.headers

/-- The command of `SendWithReply`. -/
def sendWithReply (request : SendMessageWithReplyRequest) : SendMessageWithReplyCommand where
  target := request.exchange
  routingKey := request.routingKey
  payload := request.payload
  correlationId := request.correlationId
  headers := request.headers

end MessagesController

end BusTester
