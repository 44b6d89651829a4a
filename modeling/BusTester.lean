import BusTester.Transition.Run
import BusTester.Application.SendMessageWithReply
import BusTester.Infrastructure.SubscriptionRegistry
import BusTester.Backend.Buffering
import BusTester.Client.SendComponent
import BusTester.Client.SendPanel
import BusTester.Client.BusHub
import BusTester.Client.MessagesComponent
import BusTester.Api.MessagesController
import BusTester.Infrastructure.Transport
import BusTester.Client.ReplyLoop
import BusTester.Client.ChipQueues
import BusTester.Live.World
import BusTester.Live.Reconnect
import BusTester.Live.Arrival
import BusTester.Backend.LiveConsumers
import BusTester.Backend.UseCases
import BusTester.Backend.ReplyRace
import BusTester.Client.Invocations
import BusTester.Live.Membership
import BusTester.Client.SendRecords
import BusTester.Text.JsonLexer
import BusTester.Text.Json
import BusTester.Collections.KeyedLog
import BusTester.Client.HistoryStorage
import BusTester.Client.HistoryTabs
import BusTester.Client.MessageStore
import BusTester.Reactive.LinkedSignal
import BusTester.Client.Feed
import BusTester.Client.FeedViews
import BusTester.Client.FeedPauses
import BusTester.Infrastructure.Teardown
import BusTester.Backend.Unsubscribing
import BusTester.Client.Promises
import BusTester.Live.LatePushes
import BusTester.Backend.Awaiting
import BusTester.Live.Session
import BusTester.Application.CoordinatorRuns
import BusTester.Client.ReplyDrafts
import BusTester.Client.FailedWrites
import BusTester.Client.RestoredHeaders
import BusTester.Client.MessageValidation
import BusTester.Api.ConnectionsController
import BusTester.Numbers.NearestEven
import BusTester.Numbers.ShortestDecimal
import BusTester.Text.JsNumber
import BusTester.Text.JsValue
import BusTester.Text.JsonPretty
import BusTester.Client.JsonPrettyPipe
import BusTester.Client.CorruptedHistory
import BusTester.Client.CheckedRecords
import BusTester.Infrastructure.Publishing
import BusTester.Transition.Projection
import BusTester.Backend.Publications
import BusTester.Live.Sending
import BusTester.Client.ConnectComponent
import BusTester.Live.Connecting
import BusTester.Infrastructure.OneTeardown
import BusTester.Live.Serving
import BusTester.Live.System
import BusTester.Live.InOrder
import BusTester.Infrastructure.Progress
import BusTester.Client.NormalForm
import BusTester.Live.Pages
import BusTester.Live.Silence
import BusTester.Infrastructure.Endings
import BusTester.Backend.Completion
