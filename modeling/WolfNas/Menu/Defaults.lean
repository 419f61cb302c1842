import WolfNas.Menu.Rows
import Mathlib.Data.List.MinMax

/-!
# The built-in menus

The menus that the program comes with, in two levels, and the ids of the database: one more than the
greatest that is in use.

## Main definitions

* `defaultMenus` — `DEFAULT_MENUS`.
* `MenuTable.nextId` — the id of a new row.
* `MenuEnv.wolf` — the menus of the program on its database.
* `installedMenus` — the menus after the first start.
-/

namespace WolfNas

open Text

/-- An entry with a page of its own. -/
def page (level : ℤ) (name code path icon component : String) (sortOrder : ℤ)
    (permission : String) : MenuData where
  name := of name
  code := of code
  path := some (of path)
  icon := some (of icon)
  component := some (of component)
  sortOrder := sortOrder
  level := level
  permissionCode := some (of permission)

/-- `DEFAULT_MENUS`. -/
def defaultMenus : Forest MenuData :=
  .cons (page 1 "首页" "Home" "/dashboard/home" "lucide:layout-dashboard" "/dashboard/home/index" 0
      "") .nil <|
  .cons (page 1 "我的媒体库" "Library" "/library" "lucide:tv" "/media/library/index" 1
      "library:view") .nil <|
  .cons (page 1 "资源搜索" "MediaSearch" "/media/search" "lucide:search" "/media/search/index" 2
      "search:view") .nil <|
  .cons (page 1 "媒体流转" "MediaLifecycle" "/media/lifecycle" "lucide:workflow"
      "/media/lifecycle/index" 7 "library:view") .nil <|
  .cons { name := of "探索", code := of "Discovery", path := some (of ""),
          icon := some (of "lucide:compass"), sortOrder := 3, level := 1,
          permissionCode := some (of "discovery:view") } (
    .cons (page 2 "排行榜" "DiscoveryAll" "/discovery" "lucide:compass" "/media/discovery/index" 0
        "discovery:view") .nil <|
    .cons (page 2 "豆瓣电影" "DoubanMovie" "/discovery/douban-movie" "lucide:film"
        "/media/discovery/index" 2 "discovery:view") .nil <|
    .cons (page 2 "豆瓣电视剧" "DoubanTv" "/discovery/douban-tv" "lucide:tv" "/media/discovery/index" 3
        "discovery:view") .nil <|
    .cons (page 2 "TMDB电影" "TmdbMovie" "/discovery/tmdb-movie" "lucide:clapperboard"
        "/media/discovery/index" 4 "discovery:view") .nil <|
    .cons (page 2 "TMDB电视剧" "TmdbTv" "/discovery/tmdb-tv" "lucide:monitor-play"
        "/media/discovery/index" 5 "discovery:view") .nil <|
    .cons (page 2 "Bangumi" "Bangumi" "/discovery/bangumi" "lucide:calendar-days"
        "/media/discovery/index" 6 "discovery:view") .nil <|
    .cons { name := of "更多推荐", code := of "DiscoveryRecommend",
            path := some (of "/discovery/recommend"), icon := some (of "lucide:more-horizontal"),
            component := some (of "/media/discovery/recommend"), sortOrder := 7, level := 2,
            permissionCode := some (of "discovery:view"), hideInMenu := 1 } .nil <|
    .nil) <|
  .cons { name := of "媒体详情", code := of "MediaDetail", path := some (of "/media/detail"),
          icon := some (of "lucide:info"), component := some (of "/media/detail/index"),
          sortOrder := 999, level := 1, permissionCode := some (of "library:view"),
          hideInMenu := 1 } .nil <|
  .cons (page 1 "消息中心" "MessageCenter" "/message-center" "lucide:message-square-text"
      "/message-center/index" 10 "agent:view") .nil <|
  .cons (page 1 "知识库" "AgentKnowledge" "/knowledge" "lucide:library-big" "/knowledge/index" 11
      "agent:view") .nil <|
  .cons { name := of "站点管理", code := of "Site", path := some (of ""),
          icon := some (of "lucide:server"), sortOrder := 8, level := 1,
          permissionCode := some (of "site:view") } (
    .cons (page 2 "站点维护" "SiteMaintenance" "/site/list" "lucide:server" "/site/list/index" 1
        "site:view") .nil <|
    .cons (page 2 "数据统计" "SiteStatistics" "/site/statistics" "lucide:clock" "/site/statistics/index"
        2 "site:view") .nil <|
    .cons (page 2 "站点资源" "SiteResources" "/site/resources" "lucide:database" "/site/resources/index"
        3 "site:view") .nil <|
    .cons (page 2 "自定义 RSS" "SiteRssSources" "/site/rss-sources" "lucide:rss"
        "/site/rss-sources/index" 4 "site:manage") .nil <|
    .nil) <|
  .cons { name := of "刷流中心", code := of "Brush", path := some (of ""),
          icon := some (of "lucide:zap"), sortOrder := 9, level := 1,
          permissionCode := some (of "brush:view") } (
    .cons (page 2 "刷流任务" "BrushTask" "/brush" "lucide:activity" "/brush/index" 1
        "brush:manage") .nil <|
    .cons (page 2 "刷流规则" "BrushRule" "/brush/rules" "lucide:filter" "/brush/rules/index" 2
        "brush:manage") .nil <|
    .cons (page 2 "事件日志" "BrushEvent" "/brush/events" "lucide:scroll-text" "/brush/events/index" 3
        "brush:view") .nil <|
    .nil) <|
  .cons { name := of "订阅管理", code := of "Subscription", path := some (of ""),
          icon := some (of "lucide:rss"), sortOrder := 4, level := 1,
          permissionCode := some (of "subscription:view") } (
    .cons (page 2 "电影订阅" "MovieSubscription" "/subscription/movie" "lucide:film"
        "/subscription/movie/index" 1 "subscription:view") .nil <|
    .cons (page 2 "电视剧订阅" "TvSubscription" "/subscription/tv" "lucide:tv" "/subscription/tv/index" 2
        "subscription:view") .nil <|
    .cons (page 2 "订阅历史" "SubscriptionHistory" "/subscription/history" "lucide:history"
        "/subscription/history/index" 3 "subscription:view") .nil <|
    .cons (page 2 "订阅日历" "RssCalendar" "/subscription/calendar" "lucide:calendar-days"
        "/subscription/calendar/index" 4 "subscription:view") .nil <|
    .nil) <|
  .cons { name := of "下载管理", code := of "Download", path := some (of ""),
          icon := some (of "lucide:download"), sortOrder := 5, level := 1,
          permissionCode := some (of "library:manage") } (
    .cons (page 2 "正在下载" "Downloading" "/download/downloading" "lucide:loader"
        "/download/downloading/index" 1 "download:view") .nil <|
    .cons (page 2 "近期下载" "DownloadHistory" "/download/history" "lucide:clock"
        "/download/history/index" 2 "download:view") .nil <|
    .cons (page 2 "自动删种" "TorrentRemove" "/download/torrent-remove" "lucide:trash-2"
        "/download/torrent-remove/index" 3 "download:manage") .nil <|
    .cons (page 2 "下载设置" "DownloadSettings" "/download/settings" "lucide:sliders-horizontal"
        "/download/settings/index" 4 "download:manage") .nil <|
    .nil) <|
  .cons { name := of "媒体整理", code := of "Rename", icon := some (of "lucide:file-text"),
          sortOrder := 6, level := 1, permissionCode := some (of "library:manage") } (
    .cons (page 2 "批量重命名" "LibraryBatchRename" "/rename/library-batch" "lucide:wand-sparkles"
        "/rename/library-batch/index" 4 "library:manage") .nil <|
    .cons (page 2 "识别历史" "RenameHistory" "/rename/history" "lucide:history" "/rename/history/index"
        1 "library:manage") .nil <|
    .cons (page 2 "文件管理" "RenameMediafile" "/rename/mediafile" "lucide:file-search"
        "/rename/mediafile/index" 2 "library:manage") .nil <|
    .cons (page 2 "未识别列表" "RenameUnidentification" "/rename/unidentification" "lucide:file-question"
        "/rename/unidentification/index" 3 "library:manage") .nil <|
    .cons (page 2 "TMDB 黑名单" "RenameBlacklist" "/rename/blacklist" "lucide:ban"
        "/rename/blacklist/index" 5 "library:manage") .nil <|
    .nil) <|
  .cons { name := of "服务", code := of "Service", icon := some (of "lucide:layout-grid"),
          sortOrder := 12, level := 1, permissionCode := some (of "service:view") } (
    .cons (page 2 "服务面板" "ServicePanel" "/service/panel" "lucide:layout-grid" "/service/panel/index"
        1 "service:view") .nil <|
    .cons (page 2 "调度任务" "SchedulerJobs" "/service/scheduler" "lucide:clock" "/scheduler/jobs/index"
        2 "service:view") .nil <|
    .nil) <|
  .cons { name := of "系统设置", code := of "System", icon := some (of "lucide:settings"),
          sortOrder := 13, level := 1, permissionCode := some (of "setting:view") } (
    .cons (page 2 "基础设置" "SystemBasic" "/system/basic" "lucide:sliders-horizontal"
        "/system/basic/index" 1 "setting:view") .nil <|
    .cons (page 2 "媒体库设置" "SystemLibrary" "/system/library" "lucide:tv" "/system/library/index" 2
        "setting:view") .nil <|
    .cons (page 2 "分类配置" "SystemCategory" "/system/category" "lucide:tags" "/system/category/index"
        3 "setting:view") .nil <|
    .cons (page 2 "目录同步" "SystemSync" "/system/sync" "lucide:refresh-cw" "/sync/index" 4
        "setting:view") .nil <|
    .cons (page 2 "下载器设置" "SystemDownloader" "/system/downloader" "lucide:download"
        "/download/downloader/index" 5 "setting:view") .nil <|
    .cons (page 2 "索引器设置" "SystemIndexer" "/system/indexer" "lucide:search" "/service/indexer/index"
        6 "setting:view") .nil <|
    .cons (page 2 "媒体服务器" "SystemMediaserver" "/system/mediaserver" "lucide:server"
        "/service/mediaserver/index" 7 "setting:view") .nil <|
    .cons (page 2 "通知设置" "SystemNotification" "/system/notification" "lucide:bell"
        "/service/notification/index" 8 "setting:view") .nil <|
    .cons (page 2 "自定义识别词" "SystemWords" "/system/words" "lucide:file-text" "/words/index" 9
        "setting:view") .nil <|
    .cons (page 2 "过滤规则" "SystemFilter" "/system/filter" "lucide:funnel" "/filter/rule/index" 10
        "setting:view") .nil <|
    .cons (page 2 "用户管理" "SystemUsers" "/system/users" "lucide:users" "/system/users/index" 11
        "user:view") .nil <|
    .cons (page 2 "角色管理" "SystemRoles" "/system/roles" "lucide:shield" "/system/roles/index" 12
        "role:view") .nil <|
    .cons (page 2 "菜单管理" "SystemMenus" "/system/menus" "lucide:menu" "/system/menus/index" 13
        "menu:view") .nil <|
    .cons (page 2 "API Key 管理" "SystemAPIKey" "/system/apikey" "lucide:key" "/system/apikey/index"
        14 "apikey:view") .nil <|
    .cons (page 2 "存储后端" "SystemStorage" "/system/storage" "lucide:hard-drive"
        "/system/storage/index" 15 "storage:view") .nil <|
    .nil) <|
  .cons { name := of "插件中心", code := of "Plugin", icon := some (of "lucide:puzzle"),
          sortOrder := 14, level := 1, permissionCode := some (of "plugin:view") } (
    .cons (page 2 "插件市场" "PluginMarket" "/plugin/market" "lucide:store" "/plugin/market/index" 1
        "plugin:view") .nil <|
    .cons (page 2 "已安装插件" "PluginInstalled" "/plugin/installed" "lucide:box"
        "/plugin/installed/index" 2 "plugin:view") .nil <|
    .nil) <|
  .cons (page 1 "日志" "Logs" "/logs" "lucide:scroll-text" "/system/logs/index" 15 "log:view") .nil <|
  .cons (page 1 "关于" "About" "/about" "lucide:copyright" "/_core/about/index" 16 "") .nil <|
  .nil

/-- The id of a new row. -/
def MenuTable.nextId (t : MenuTable) : ℕ := (t.rows.map Menu.id).foldr max 0 + 1

theorem MenuTable.lt_nextId {t : MenuTable} {m : Menu} (hm : m ∈ t.rows) : m.id < t.nextId :=
  Nat.lt_succ_of_le (List.le_max_of_le' 0 (List.mem_map_of_mem hm) le_rfl)

/-- The menus of the program on its database. -/
def MenuEnv.wolf : MenuEnv where
  defaults := defaultMenus
  nodup := by decide +kernel
  levelled := by decide +kernel
  freshId := MenuTable.nextId
  fresh t m hm := (MenuTable.lt_nextId hm).ne

/-- No menus. -/
def noMenus : MenuStore where
  menus := { rows := [], nodup := List.nodup_nil, codes := List.nodup_nil }

/-- The menus after the first start. -/
def installedMenus : MenuStore := (MenuEnv.wolf.initRbacMenus false noMenus).1

end WolfNas
